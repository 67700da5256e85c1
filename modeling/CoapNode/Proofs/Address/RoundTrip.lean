import CoapNode.Proofs.Address.Digits
import CoapNode.Proofs.Network.Address

set_option autoImplicit false

/-! # Addresses survive as text

An IPv6 address is read again from its text (`IPAddress.parse?_chars`), in each of the notations
that are used for it: with the longest run of zero groups left out, with all its groups, or with an
IPv4 address at its end. A reader of groups goes on as long as a colon and a group follow, so it
stops at the two colons that stand for the zeros (`IPv6.readGroups_joinGroups`), and the number of
groups before and behind them gives the number of zeros.
-/

namespace CoapNode

/-! ## IPv4 addresses -/

theorem IPv4.read_chars (ip : IPv4) {rest : List Char} (hrest : Bounds Char.isDigit rest) :
    read (ip.chars ++ rest) = some (ip, rest) := by
  have hdot : ∀ text, Bounds Char.isDigit ('.' :: text) := fun _ => .cons rfl
  have hexpect : ∀ text, expect '.' ('.' :: text) = some text := fun _ => rfl
  simp only [chars, List.append_assoc, List.cons_append, read, Option.bind_eq_bind,
    readOctet_decimal _ (hdot _), readOctet_decimal _ hrest, hexpect, Option.bind_some]
  rfl

/-- A text is no IPv4 address unless a dot follows its first digits. -/
theorem IPv4.read_eq_none {text : List Char}
    (h : (text.dropWhile Char.isDigit).head? ≠ some '.') : read text = none := by
  rw [read, readOctet]
  dsimp only
  split
  · rfl
  · cases hrest : text.dropWhile Char.isDigit with
    | nil => rfl
    | cons c rest =>
        have hdot : c ≠ '.' := by
          rintro rfl
          exact h (congrArg List.head? hrest)
        simp only [Option.bind_eq_bind, Option.bind_some, expect, if_neg hdot, Option.bind_none]

/-! ## Groups -/

namespace IPv6

/-- Groups, each behind a colon. -/
def colonGroups (groups : List UInt16) : List Char := groups.flatMap fun g => ':' :: hexGroup g

theorem joinGroups_cons (g : UInt16) (groups : List UInt16) :
    joinGroups (g :: groups) = hexGroup g ++ colonGroups groups := by
  induction groups generalizing g with
  | nil => exact (List.append_nil _).symm
  | cons g' groups ih =>
      rw [joinGroups.eq_3 _ _ (by nofun), ih, colonGroups, colonGroups, List.flatMap_cons]
      rfl

/-- May this follow the groups of an address? It is the end, or the two colons that stand for
zeros. -/
def EndsGroups (rest : List Char) : Prop := rest = [] ∨ ∃ more, rest = ':' :: ':' :: more

section

variable {groups : List UInt16} {rest : List Char}

/-- Nothing but a colon can follow a group. -/
theorem head?_colonGroups (hrest : EndsGroups rest) :
    ∀ c ∈ (colonGroups groups ++ rest).head?, c = ':' := by
  cases groups with
  | nil =>
      rcases hrest with rfl | ⟨more, rfl⟩
      · nofun
      · rintro _ ⟨⟩
        rfl
  | cons g groups =>
      rintro _ ⟨⟩
      rfl

theorem no_dot_of_colon (hrest : ∀ c ∈ rest.head?, c = ':') :
    (rest.dropWhile Char.isDigit).head? ≠ some '.' := by
  have hbounds : Bounds Char.isDigit rest := by
    intro c hc
    rw [hrest c hc]
    rfl
  rw [hbounds.dropWhile_eq_self]
  intro hdot
  exact absurd (hrest '.' hdot) (by decide)

/-- What begins with a group and goes on with a colon is no IPv4 address. -/
theorem read_hexGroup_eq_none (g : UInt16) (hrest : ∀ c ∈ rest.head?, c = ':') :
    IPv4.read (hexGroup g ++ rest) = none := by
  apply IPv4.read_eq_none
  -- by induction on the digits of the group, of which only the first ones may be decimal
  have hdots : ∀ run : List Char, (∀ c ∈ run, isHexDigit c = true) →
      ((run ++ rest).dropWhile Char.isDigit).head? ≠ some '.' := by
    intro run hrun
    induction run with
    | nil => exact no_dot_of_colon hrest
    | cons c run ih =>
        obtain ⟨hc, hrun⟩ := List.forall_mem_cons.1 hrun
        rw [List.cons_append, List.dropWhile_cons]
        split
        · exact ih hrun
        · rintro ⟨⟩
          cases hc
  exact hdots _ (hexGroup_spec g).2.2.1

theorem bounds_isHexDigit (hrest : ∀ c ∈ rest.head?, c = ':') : Bounds isHexDigit rest := by
  intro c hc
  rw [hrest c hc]
  rfl

/-- **One group is read**, and the reader goes on behind it. -/
theorem readGroups_hexGroup {text : List Char} {g : UInt16} (limit : Nat) {first : Bool}
    (htext : (if first then some text else expect ':' text) = some (hexGroup g ++ rest))
    (hrest : ∀ c ∈ rest.head?, c = ':') :
    readGroups (limit + 1) first text
      = ⟨g :: (readGroups limit false rest).groups, (readGroups limit false rest).endsInIPv4,
          (readGroups limit false rest).rest⟩ := by
  rw [readGroups, htext]
  dsimp only
  rw [read_hexGroup_eq_none g hrest, ite_self]
  dsimp only
  rw [readGroup_hexGroup g (bounds_isHexDigit hrest)]

/-- A colon begins neither a group nor an IPv4 address. -/
theorem readGroups_of_colon {text inner : List Char} (limit : Nat) {first : Bool}
    (htext : (if first then some text else expect ':' text) = some inner)
    (hinner : ∀ c ∈ inner.head?, c = ':') : readGroups limit first text = ⟨[], false, text⟩ := by
  have hv4 : IPv4.read inner = none := IPv4.read_eq_none (no_dot_of_colon hinner)
  have hgroup : readGroup inner = none := by
    rw [readGroup, (bounds_isHexDigit hinner).takeWhile_eq_nil]
    exact if_pos (.inl rfl)
  cases limit with
  | zero => rfl
  | succ limit =>
      rw [readGroups, htext]
      dsimp only
      rw [hv4, ite_self]
      dsimp only
      rw [hgroup]

/-- Where groups end, no further one is read. -/
theorem readGroups_of_ends (hrest : EndsGroups rest) (limit : Nat) (first : Bool) :
    readGroups limit first rest = ⟨[], false, rest⟩ := by
  rcases hrest with rfl | ⟨more, rfl⟩
  · cases first with
    | false => cases limit <;> rfl
    | true => exact readGroups_of_colon limit rfl nofun
  · have hcolon : ∀ more, ∀ c ∈ (':' :: more).head?, c = ':' := by
      rintro _ _ ⟨⟩
      rfl
    cases first with
    | false => exact readGroups_of_colon limit rfl (hcolon more)
    | true => exact readGroups_of_colon limit rfl (hcolon _)

/-- Groups behind colons are read again, up to where they end, if there is room for them. -/
theorem readGroups_colonGroups {limit : Nat} (hlimit : groups.length ≤ limit)
    (hrest : EndsGroups rest) :
    readGroups limit false (colonGroups groups ++ rest) = ⟨groups, false, rest⟩ := by
  induction groups generalizing limit with
  | nil => exact readGroups_of_ends hrest limit false
  | cons g groups ih =>
      obtain ⟨limit, rfl⟩ : ∃ n, limit = n + 1 := ⟨limit - 1, by simp at hlimit; omega⟩
      have htext : expect ':' (colonGroups (g :: groups) ++ rest)
          = some (hexGroup g ++ (colonGroups groups ++ rest)) := by
        rw [colonGroups, List.flatMap_cons, List.append_assoc]
        rfl
      have hgroup : readGroups (limit + 1) false (colonGroups (g :: groups) ++ rest) = _ :=
        readGroups_hexGroup limit htext (head?_colonGroups hrest)
      rw [hgroup, ih (Nat.le_of_succ_le_succ hlimit)]

/-- **Joined groups are read again**, up to where they end, if there is room for them. -/
theorem readGroups_joinGroups {limit : Nat} (hlimit : groups.length ≤ limit)
    (hrest : EndsGroups rest) :
    readGroups limit true (joinGroups groups ++ rest) = ⟨groups, false, rest⟩ := by
  cases groups with
  | nil => exact readGroups_of_ends hrest limit true
  | cons g groups =>
      obtain ⟨limit, rfl⟩ : ∃ n, limit = n + 1 := ⟨limit - 1, by simp at hlimit; omega⟩
      rw [joinGroups_cons, List.append_assoc,
        readGroups_hexGroup limit rfl (head?_colonGroups hrest),
        readGroups_colonGroups (Nat.le_of_succ_le_succ hlimit) hrest]

/-- What begins with groups is no IPv4 address. -/
theorem read_joinGroups_eq_none (hrest : EndsGroups rest) :
    IPv4.read (joinGroups groups ++ rest) = none := by
  cases groups with
  | nil =>
      rcases hrest with rfl | ⟨more, rfl⟩
      · rfl
      · exact IPv4.read_eq_none nofun
  | cons g groups =>
      rw [joinGroups_cons, List.append_assoc]
      exact read_hexGroup_eq_none g (head?_colonGroups hrest)

end

/-! ## Runs of zeros -/

/-- **The run that is left out** is one of zeros, and divides the groups in two. -/
theorem exists_longestZeroRun (groups : List UInt16) :
    ∃ front back, groups = front ++ (List.replicate (longestZeroRun groups).2 0 ++ back)
      ∧ front.length = (longestZeroRun groups).1 := by
  induction groups with
  | nil => exact ⟨[], [], rfl, rfl⟩
  | cons g groups ih =>
      rw [longestZeroRun]
      dsimp only
      -- the run at the front is left out, or one further behind that is longer
      split
      · refine ⟨[], (g :: groups).dropWhile (· == 0), ?_, rfl⟩
        have hzeros : (g :: groups).takeWhile (· == 0)
            = List.replicate ((g :: groups).takeWhile (· == 0)).length 0 := by
          rw [List.eq_replicate_iff]
          refine ⟨rfl, fun g' hg' => ?_⟩
          exact eq_of_beq (List.all_eq_true.1 List.all_takeWhile g' hg')
        calc g :: groups
            = (g :: groups).takeWhile (· == 0) ++ (g :: groups).dropWhile (· == 0) :=
              List.takeWhile_append_dropWhile.symm
          _ = [] ++ (List.replicate ((g :: groups).takeWhile (· == 0)).length 0
                ++ (g :: groups).dropWhile (· == 0)) := by rw [← hzeros, List.nil_append]
      · obtain ⟨front, back, hgroups, hlength⟩ := ih
        refine ⟨g :: front, back, ?_, congrArg (· + 1) hlength⟩
        rw [List.cons_append, ← hgroups]

/-! ## IPv6 addresses -/

section

variable {ip : IPv6} {rest : List Char}

theorem length_of_zeros {front back : List UInt16} {zeros : Nat}
    (h : ip.toList = front ++ (List.replicate zeros 0 ++ back)) :
    front.length + (zeros + back.length) = 8 := by
  have hcount := congrArg List.length h
  rw [List.length_append, List.length_append, List.length_replicate] at hcount
  exact hcount.symm

/-- **The zeros that were left out are found again**: as many as there are groups missing. -/
theorem read_of_zeros {front back : List UInt16} {zeros : Nat} {text : List Char} {inIPv4 : Bool}
    (hgroups : ip.toList = front ++ (List.replicate zeros 0 ++ back)) (hzeros : 0 < zeros)
    (hback : readGroups (7 - front.length) true text = ⟨back, inIPv4, rest⟩) :
    read (joinGroups front ++ ':' :: ':' :: text) = some (ip, rest) := by
  have hlength := length_of_zeros hgroups
  have hfront : readGroups 8 true (joinGroups front ++ ':' :: ':' :: text)
      = ⟨front, false, ':' :: ':' :: text⟩ :=
    readGroups_joinGroups (by omega) (.inr ⟨text, rfl⟩)
  have hmissing : 8 - front.length - back.length = zeros := by omega
  rw [read, hfront]
  dsimp only
  rw [if_neg (by omega), if_neg Bool.false_ne_true]
  simp only [expect, if_pos, Option.bind_eq_bind, Option.bind_some, hback, hmissing]
  rw [List.append_assoc, ← hgroups, ofList?_toList]
  rfl

/-- An address with all its groups. -/
theorem read_of_groups (ip : IPv6) : read (joinGroups ip.toList) = some (ip, []) := by
  have hall := readGroups_joinGroups (Nat.le_refl ip.toList.length) (.inl rfl)
  rw [List.append_nil] at hall
  have hread : readGroups 8 true (joinGroups ip.toList) = ⟨ip.toList, false, []⟩ := hall
  rw [read, hread]
  rfl

theorem read_compressed (ip : IPv6) : read ip.compressed = some (ip, []) := by
  obtain ⟨front, back, hgroups, hstart⟩ := exists_longestZeroRun ip.toList
  rw [compressed]
  cases hrun : longestZeroRun ip.toList with
  | mk start zeros =>
      rw [hrun] at hgroups hstart
      dsimp only at hgroups hstart ⊢
      split
      · next hlong =>
          have hlength := length_of_zeros hgroups
          have htake : ip.toList.take start = front := by
            rw [hgroups, List.take_left' hstart]
          have hdrop : ip.toList.drop (start + zeros) = back := by
            calc ip.toList.drop (start + zeros)
                = (front ++ List.replicate zeros 0 ++ back).drop (start + zeros) := by
                  rw [hgroups, List.append_assoc]
              _ = back := by
                  apply List.drop_left'
                  rw [List.length_append, List.length_replicate, hstart]
          have hroom : back.length ≤ 7 - front.length := by omega
          have hback := readGroups_joinGroups hroom (.inl rfl)
          rw [List.append_nil] at hback
          rw [htake, hdrop]
          exact read_of_zeros hgroups (Nat.lt_of_succ_lt hlong) hback
      · exact read_of_groups ip

/-- An IPv4 address at the end counts as two groups. -/
theorem readGroups_ipv4 (v4 : IPv4) {limit : Nat} {first : Bool} {text : List Char}
    (htext : (if first then some text else expect ':' text) = some v4.chars) :
    readGroups (limit + 2) first text
      = ⟨[groupOf v4.a v4.b, groupOf v4.c v4.d], true, []⟩ := by
  have hread := v4.read_chars .nil
  rw [List.append_nil] at hread
  rw [readGroups, htext]
  dsimp only
  rw [if_neg (Nat.succ_ne_zero limit), hread]

/-- **An IPv6 address is read again** from its text, whichever notation is used for it. -/
theorem read_chars (ip : IPv6) : read ip.chars = some (ip, []) := by
  -- the notations in turn: nothing but zeros, the loopback address, an IPv4 address behind zeros
  -- only, a mapped IPv4 address, and groups
  unfold chars
  split
  · next heq =>
      rw [heq]
      rfl
  split
  · next heq =>
      rw [heq]
      rfl
  split
  · next hzeros =>
      simp only [hasSixZeros, Bool.and_eq_true, beq_iff_eq] at hzeros
      obtain ⟨⟨⟨⟨⟨h0, h1⟩, h2⟩, h3⟩, h4⟩, h5⟩ := hzeros
      have hgroups : ip.toList = [] ++ (List.replicate 6 0 ++ [ip.g6, ip.g7]) := by
        rw [toList, h0, h1, h2, h3, h4, h5]
        rfl
      have hback : readGroups 7 true ip.tail4.chars = ⟨[ip.g6, ip.g7], true, []⟩ := by
        rw [readGroups_ipv4 ip.tail4 rfl, tail4, groupOf_octets, groupOf_octets]
      exact read_of_zeros hgroups (by decide) hback
  split
  · next hmapped =>
      simp only [isMapped, Bool.and_eq_true, beq_iff_eq] at hmapped
      obtain ⟨⟨⟨⟨⟨h0, h1⟩, h2⟩, h3⟩, h4⟩, h5⟩ := hmapped
      have hgroups : ip.toList = [] ++ (List.replicate 5 0 ++ [0xFFFF, ip.g6, ip.g7]) := by
        rw [toList, h0, h1, h2, h3, h4, h5]
        rfl
      have htail : readGroups 6 false (':' :: ip.tail4.chars) = ⟨[ip.g6, ip.g7], true, []⟩ := by
        rw [readGroups_ipv4 ip.tail4 rfl, tail4, groupOf_octets, groupOf_octets]
      have hback : readGroups 7 true (hexGroup 0xFFFF ++ ':' :: ip.tail4.chars)
          = ⟨[0xFFFF, ip.g6, ip.g7], true, []⟩ := by
        rw [readGroups_hexGroup 6 rfl (by rintro _ ⟨⟩; rfl), htail]
      exact read_of_zeros hgroups (by decide) hback
  · exact read_compressed ip

/-- Every notation begins with groups. -/
theorem exists_chars_eq (ip : IPv6) :
    ∃ groups rest, ip.chars = joinGroups groups ++ rest ∧ EndsGroups rest := by
  unfold chars
  split
  · exact ⟨[], _, rfl, .inr ⟨[], rfl⟩⟩
  split
  · exact ⟨[], _, rfl, .inr ⟨['1'], rfl⟩⟩
  split
  · exact ⟨[], _, rfl, .inr ⟨ip.tail4.chars, rfl⟩⟩
  split
  · exact ⟨[], _, rfl, .inr ⟨"ffff:".toList ++ ip.tail4.chars, rfl⟩⟩
  · unfold compressed
    dsimp only
    split
    · exact ⟨_, _, rfl, .inr ⟨_, rfl⟩⟩
    · exact ⟨ip.toList, [], (List.append_nil _).symm, .inl rfl⟩

end

end IPv6

/-- **An IPv6 address survives as text.** -/
theorem IPAddress.parse?_chars (ip : IPv6) : parse? ip.chars = some (.v6 ip) := by
  obtain ⟨groups, rest, htext, hrest⟩ := ip.exists_chars_eq
  have hv4 : IPv4.read ip.chars = none := htext ▸ IPv6.read_joinGroups_eq_none hrest
  rw [parse?, hv4]
  dsimp only
  rw [ip.read_chars]

/-! ## The characters of an address -/

/-- The characters that addresses are written with. -/
def IsAddressChar (c : Char) : Prop := isHexDigit c = true ∨ c = ':' ∨ c = '.'

instance : DecidablePred IsAddressChar := fun c =>
  inferInstanceAs (Decidable (isHexDigit c = true ∨ c = ':' ∨ c = '.'))

theorem isAddressChar_of_all {text : List Char} (h : (text.all fun c => IsAddressChar c) = true) :
    ∀ c ∈ text, IsAddressChar c :=
  fun c hc => of_decide_eq_true (List.all_eq_true.1 h c hc)

theorem isAddressChar_decimal (n : Nat) : ∀ c ∈ decimal n, IsAddressChar c := by
  intro c hc
  refine .inl ?_
  rw [isHexDigit, isDigit_of_mem_decimal hc]
  rfl

theorem IPv4.isAddressChar_chars (ip : IPv4) : ∀ c ∈ ip.chars, IsAddressChar c := by
  simp only [chars, List.forall_mem_append, List.forall_mem_cons]
  have hdot : IsAddressChar '.' := .inr (.inr rfl)
  have hoctet := fun octet : UInt8 => isAddressChar_decimal octet.toNat
  exact ⟨⟨⟨hoctet _, hdot, hoctet _⟩, hdot, hoctet _⟩, hdot, hoctet _⟩

theorem isAddressChar_hexGroup (g : UInt16) : ∀ c ∈ hexGroup g, IsAddressChar c :=
  fun c hc => .inl ((hexGroup_spec g).2.2.1 c hc)

theorem IPv6.isAddressChar_joinGroups (groups : List UInt16) :
    ∀ c ∈ joinGroups groups, IsAddressChar c := by
  cases groups with
  | nil => nofun
  | cons g groups =>
      rw [joinGroups_cons]
      refine List.forall_mem_append.2 ⟨isAddressChar_hexGroup g, ?_⟩
      intro c hc
      obtain ⟨g', -, hc⟩ := List.mem_flatMap.1 hc
      rcases List.mem_cons.1 hc with rfl | hc
      · exact .inr (.inl rfl)
      · exact isAddressChar_hexGroup g' c hc

theorem IPv6.isAddressChar_chars (ip : IPv6) : ∀ c ∈ ip.chars, IsAddressChar c := by
  have hcolons : ∀ c ∈ "::".toList, IsAddressChar c := isAddressChar_of_all rfl
  have htail := ip.tail4.isAddressChar_chars
  unfold chars
  split
  · exact hcolons
  split
  · exact isAddressChar_of_all rfl
  split
  · exact List.forall_mem_append.2 ⟨hcolons, htail⟩
  split
  · exact List.forall_mem_append.2 ⟨isAddressChar_of_all rfl, htail⟩
  · unfold compressed
    dsimp only
    split
    · refine List.forall_mem_append.2 ⟨isAddressChar_joinGroups _, ?_⟩
      have hcolon : IsAddressChar ':' := .inr (.inl rfl)
      exact List.forall_mem_cons.2 ⟨hcolon, List.forall_mem_cons.2
        ⟨hcolon, isAddressChar_joinGroups _⟩⟩
    · exact isAddressChar_joinGroups _

end CoapNode
