import CoapNode.Endpoint.Parser
import CoapNode.Proofs.Address.RoundTrip
import Mathlib.Data.List.Infix
import Mathlib.Data.List.TakeWhile

set_option autoImplicit false

/-! # The grammar of endpoints

Which texts denote an endpoint, and which one (`Denotes`), and what is wrong with the others
(`Refused`). A text can break the grammar at its scheme, its brackets, its address or its port; each
form of refusal says that everything before is in order. No text is left over
(`denotes_or_refused`), so the two relations are the reader (`parse_iff_grammar`). An endpoint is
written in the form with all its parts, so it survives as text (`parse_text`).
-/

namespace CoapNode.Endpoint

/-! ## The grammar -/

/-- The separator of a scheme. -/
def separator : List Char := "://".toList

/-- A scheme with its separator. -/
def opening (secure : Bool) : List Char := (if secure then "coaps" else "coap").toList ++ separator

/-- The port of a scheme. -/
def portOf (secure : Bool) : UInt16 := if secure then defaultSecurePort else defaultPort

/-- Is this a path, or nothing at all? -/
def IsPath (text : List Char) : Prop := text = [] ∨ ∃ rest, text = '/' :: rest

/-- What may stand behind the bracket, and the port it gives. -/
inductive Suffix (secure : Bool) : List Char → UInt16 → Prop
  | default {path : List Char} (hpath : IsPath path) : Suffix secure path (portOf secure)
  | port {written path : List Char} {port : UInt16} (hport : IsPort written port)
      (hpath : IsPath path) : Suffix secure (':' :: (written ++ path)) port

/-- An address between brackets, with something behind it. -/
def bracketed (address after : List Char) : List Char := '[' :: (address ++ ']' :: after)

/-- **The texts that name an endpoint**: a bare address, or a scheme with an address in brackets. -/
inductive Denotes : List Char → Endpoint → Prop
  | bare {text : List Char} {ip : IPAddress} (hscheme : ¬separator <:+: text)
      (hbracket : text.head? ≠ some '[') (haddress : IPAddress.parse? text = some ip) :
      Denotes text ⟨ip.toIPv6, defaultPort, false⟩
  | bracketed {secure : Bool} {address after : List Char} {ip : IPAddress} {port : UInt16}
      (hclosed : ']' ∉ address) (haddress : IPAddress.parse? address = some ip)
      (hafter : Suffix secure after port) :
      Denotes (opening secure ++ bracketed address after) ⟨ip.toIPv6, port, secure⟩

/-- **The texts that name none**, each with the first thing that is wrong with it. -/
inductive Refused : List Char → ParseError → Prop
  | unsupportedScheme {text : List Char} (hscheme : separator <:+: text)
      (hother : ∀ secure, ¬opening secure <+: text) : Refused text .unsupportedScheme
  | missingScheme {text : List Char} (hscheme : ¬separator <:+: text)
      (hbracket : text.head? = some '[') : Refused text .missingScheme
  | missingBrackets {secure : Bool} {rest : List Char}
      (hbrackets : ∀ address after, rest ≠ bracketed address after) :
      Refused (opening secure ++ rest) .missingBrackets
  | invalidBareAddress {text : List Char} (hscheme : ¬separator <:+: text)
      (hbracket : text.head? ≠ some '[') (haddress : IPAddress.parse? text = none) :
      Refused text .invalidAddress
  | invalidAddress {secure : Bool} {address after : List Char} (hclosed : ']' ∉ address)
      (haddress : IPAddress.parse? address = none) :
      Refused (opening secure ++ bracketed address after) .invalidAddress
  | invalidPort {secure : Bool} {address after : List Char} {ip : IPAddress}
      (hclosed : ']' ∉ address) (haddress : IPAddress.parse? address = some ip)
      (hafter : ∀ port, ¬Suffix secure after port) :
      Refused (opening secure ++ bracketed address after) .invalidPort

/-! ## Delimiters -/

section

variable {delimiter : Char} {text run : List Char}

theorem forall_ne_iff : (∀ c ∈ text, decide (c ≠ delimiter) = true) ↔ delimiter ∉ text := by
  simp only [decide_eq_true_eq]
  exact ⟨fun h hmem => h _ hmem rfl, fun h c hc heq => h (heq ▸ hc)⟩

/-- What is free of a delimiter ends in front of it, or at the end of the text. -/
theorem bounds_ne_iff :
    Bounds (· ≠ delimiter) text ↔ text = [] ∨ ∃ rest, text = delimiter :: rest := by
  constructor
  · intro h
    cases text with
    | nil => exact .inl rfl
    | cons c rest =>
        have hc : c = delimiter := not_not.1 (of_decide_eq_false (h c rfl))
        exact .inr ⟨rest, by rw [hc]⟩
  · rintro (rfl | ⟨rest, rfl⟩)
    · exact .nil
    · exact .cons (decide_eq_false (not_not.2 rfl))

/-- The first delimiter divides a text. -/
theorem takeWhile_delimiter (h : delimiter ∉ run) (rest : List Char) :
    (run ++ delimiter :: rest).takeWhile (· ≠ delimiter) = run :=
  (bounds_ne_iff.2 (.inr ⟨rest, rfl⟩)).takeWhile_append (forall_ne_iff.2 h)

theorem dropWhile_delimiter (h : delimiter ∉ run) (rest : List Char) :
    (run ++ delimiter :: rest).dropWhile (· ≠ delimiter) = delimiter :: rest :=
  (bounds_ne_iff.2 (.inr ⟨rest, rfl⟩)).dropWhile_append (forall_ne_iff.2 h)

end

/-! ## Behind the bracket -/

section

variable {secure : Bool} {after : List Char} {port : UInt16}

/-- No slash is part of a port. -/
theorem slash_notMem_of_isPort {written : List Char} (h : IsPort written port) : '/' ∉ written := by
  obtain ⟨digits, htext, -, hdigits, -⟩ := h
  have hslash : '/' ∉ digits := fun hmem => absurd (hdigits '/' hmem) (by decide)
  rcases htext with rfl | rfl
  · exact hslash
  · exact List.not_mem_cons_of_ne_of_not_mem (by decide) hslash

/-- **The ports that are found** behind the bracket. -/
theorem Suffix.parseAfterAddress_eq (h : Suffix secure after port) :
    parseAfterAddress secure after = .ok port := by
  cases h with
  | default hpath =>
      rcases hpath with rfl | ⟨rest, rfl⟩
      · rfl
      · rfl
  | port hport hpath =>
      have hwritten := forall_ne_iff.2 (slash_notMem_of_isPort hport)
      rw [parseAfterAddress, (bounds_ne_iff.2 hpath).takeWhile_append hwritten,
        parsePort?_eq_some_iff.2 hport]

/-- What is no path and no port either is refused for the port. -/
theorem parseAfterAddress_eq_error (h : ∀ port, ¬Suffix secure after port) :
    parseAfterAddress secure after = .error .invalidPort := by
  fun_cases parseAfterAddress secure after with
  | case1 => exact absurd (.default (.inl rfl)) (h _)
  | case2 rest => exact absurd (.default (.inr ⟨rest, rfl⟩)) (h _)
  | case3 rest port' hport =>
      -- the digits go on up to the first slash, and from there on it is a path
      obtain ⟨written, path, rfl, hwritten, hpath⟩ := exists_run (· ≠ '/') rest
      rw [hpath.takeWhile_append hwritten] at hport
      exact absurd (.port (parsePort?_eq_some_iff.1 hport) (bounds_ne_iff.1 hpath)) (h _)
  | case4 => rfl
  | case5 => rfl

end

/-! ## Behind the scheme -/

section

variable {secure : Bool} {address after rest : List Char}

/-- The address ends at the first closing bracket. -/
theorem bracketed_or_unbracketed (rest : List Char) :
    (∃ address after, rest = bracketed address after ∧ ']' ∉ address)
      ∨ ∀ address after, rest ≠ bracketed address after := by
  rw [or_iff_not_imp_right]
  intro h
  push Not at h
  obtain ⟨address, after, rfl⟩ := h
  have hmem : ']' ∈ address ++ ']' :: after := List.mem_append_right _ List.mem_cons_self
  obtain ⟨first, more, heq, hclosed⟩ := List.eq_append_cons_of_mem hmem
  exact ⟨first, more, congrArg ('[' :: ·) heq, hclosed⟩

theorem parseAuthority_of_none (hclosed : ']' ∉ address)
    (haddress : IPAddress.parse? address = none) :
    parseAuthority secure (bracketed address after) = .error .invalidAddress := by
  rw [bracketed, parseAuthority, dropWhile_delimiter hclosed, takeWhile_delimiter hclosed, haddress]

/-- With an address between the brackets, what stands behind them decides. -/
theorem parseAuthority_of_some {ip : IPAddress} (hclosed : ']' ∉ address)
    (haddress : IPAddress.parse? address = some ip) :
    parseAuthority secure (bracketed address after)
      = (parseAfterAddress secure after).map fun port => ⟨ip.toIPv6, port, secure⟩ := by
  rw [bracketed, parseAuthority, dropWhile_delimiter hclosed, takeWhile_delimiter hclosed, haddress]
  dsimp only
  cases parseAfterAddress secure after with
  | ok port => rfl
  | error e => rfl

theorem parseAuthority_unbracketed (h : ∀ address after, rest ≠ bracketed address after) :
    parseAuthority secure rest = .error .missingBrackets := by
  unfold parseAuthority
  split
  · next inner =>
      have hopen : ']' ∉ inner := by
        intro hmem
        obtain ⟨address, after, heq⟩ := List.append_of_mem hmem
        exact h address after (congrArg ('[' :: ·) heq)
      rw [List.dropWhile_eq_nil_iff.2 (forall_ne_iff.2 hopen)]
  · rfl

end

/-! ## The scheme -/

section

variable {text : List Char}

theorem hasScheme_iff : hasScheme text = true ↔ separator <:+: text := by
  induction text with
  | nil =>
      rw [List.infix_nil]
      decide
  | cons c text ih =>
      rw [hasScheme, Bool.or_eq_true, ih, List.infix_cons_iff, List.isPrefixOf_iff_prefix]
      rfl

/-- A scheme is taken off the front. -/
theorem parseChars_opening (secure : Bool) (rest : List Char) :
    parseChars (opening secure ++ rest) = parseAuthority secure rest := by
  cases secure with
  | false => rfl
  | true => rfl

/-- What has neither scheme in front has another one, or begins with a bracket, or is an address. -/
theorem parseChars_of_not_opening (h : ∀ secure, ¬opening secure <+: text) :
    parseChars text
      = if separator <:+: text then .error .unsupportedScheme
        else if text.head? = some '[' then .error .missingScheme
        else (IPAddress.parse? text).elim (.error .invalidAddress)
          fun ip => .ok ⟨ip.toIPv6, defaultPort, false⟩ := by
  have hnone : ∀ secure, (opening secure).isPrefixOf? text = none := by
    intro secure
    rw [Option.eq_none_iff_forall_ne_some]
    intro rest hrest
    exact h secure ⟨rest, List.isPrefixOf?_eq_some_iff_append_eq.1 hrest⟩
  have hplain : "coap://".toList.isPrefixOf? text = none := hnone false
  have hsecure : "coaps://".toList.isPrefixOf? text = none := hnone true
  -- neither of the two schemes is taken off, so the text is looked at as a whole
  rw [parseChars, hsecure, hplain]
  simp only [hasScheme_iff]
  cases IPAddress.parse? text with
  | none => rfl
  | some ip => rfl

/-- A text with a scheme in front has a separator. -/
theorem not_opening_of_not_separator (h : ¬separator <:+: text) (secure : Bool) :
    ¬opening secure <+: text := by
  rintro ⟨rest, rfl⟩
  exact h (List.infix_append _ _ _)

/-- A text without scheme and bracket is an address. -/
theorem parseChars_bare (hscheme : ¬separator <:+: text) (hbracket : text.head? ≠ some '[') :
    parseChars text = (IPAddress.parse? text).elim (.error .invalidAddress)
      fun ip => .ok ⟨ip.toIPv6, defaultPort, false⟩ := by
  rw [parseChars_of_not_opening (not_opening_of_not_separator hscheme), if_neg hscheme,
    if_neg hbracket]

end

/-! ## Reading endpoints -/

section

variable {text : List Char} {peer : Endpoint} {e : ParseError}

/-- **What the grammar allows is read.** -/
theorem Denotes.parseChars_eq (h : Denotes text peer) : parseChars text = .ok peer := by
  cases h with
  | bare hscheme hbracket haddress =>
      rw [parseChars_bare hscheme hbracket, haddress, Option.elim_some]
  | bracketed hclosed haddress hafter =>
      rw [parseChars_opening, parseAuthority_of_some hclosed haddress, hafter.parseAfterAddress_eq]
      rfl

/-- **What breaks the grammar is refused** for the first thing that is wrong with it. -/
theorem Refused.parseChars_eq (h : Refused text e) : parseChars text = .error e := by
  cases h with
  | unsupportedScheme hscheme hother => rw [parseChars_of_not_opening hother, if_pos hscheme]
  | missingScheme hscheme hbracket =>
      rw [parseChars_of_not_opening (not_opening_of_not_separator hscheme), if_neg hscheme,
        if_pos hbracket]
  | missingBrackets hbrackets => rw [parseChars_opening, parseAuthority_unbracketed hbrackets]
  | invalidBareAddress hscheme hbracket haddress =>
      rw [parseChars_bare hscheme hbracket, haddress, Option.elim_none]
  | invalidAddress hclosed haddress =>
      rw [parseChars_opening, parseAuthority_of_none hclosed haddress]
  | invalidPort hclosed haddress hafter =>
      rw [parseChars_opening, parseAuthority_of_some hclosed haddress,
        parseAfterAddress_eq_error hafter]
      rfl

/-- A text with a scheme that is known is in order, or breaks the grammar behind the scheme. -/
theorem denotes_or_refused_opening (secure : Bool) (rest : List Char) :
    (∃ peer, Denotes (opening secure ++ rest) peer)
      ∨ ∃ e, Refused (opening secure ++ rest) e := by
  rcases bracketed_or_unbracketed rest with ⟨address, after, rfl, hclosed⟩ | hbrackets
  · cases haddress : IPAddress.parse? address with
    | none => exact .inr ⟨_, .invalidAddress hclosed haddress⟩
    | some ip =>
        by_cases hafter : ∃ port, Suffix secure after port
        · obtain ⟨port, hafter⟩ := hafter
          exact .inl ⟨_, .bracketed hclosed haddress hafter⟩
        · exact .inr ⟨_, .invalidPort hclosed haddress (not_exists.1 hafter)⟩
  · exact .inr ⟨_, .missingBrackets hbrackets⟩

/-- **Every text is in order or breaks the grammar** in one of its forms. -/
theorem denotes_or_refused (text : List Char) :
    (∃ peer, Denotes text peer) ∨ ∃ e, Refused text e := by
  by_cases hopening : ∃ secure, opening secure <+: text
  · obtain ⟨secure, rest, rfl⟩ := hopening
    exact denotes_or_refused_opening secure rest
  by_cases hscheme : separator <:+: text
  · exact .inr ⟨_, .unsupportedScheme hscheme (not_exists.1 hopening)⟩
  by_cases hbracket : text.head? = some '['
  · exact .inr ⟨_, .missingScheme hscheme hbracket⟩
  cases haddress : IPAddress.parse? text with
  | none => exact .inr ⟨_, .invalidBareAddress hscheme hbracket haddress⟩
  | some ip => exact .inl ⟨_, .bare hscheme hbracket haddress⟩

/-- **The reader is the grammar**: it accepts what denotes an endpoint, and that endpoint, and it
refuses everything else for the first thing that is wrong with it. -/
theorem parse_iff_grammar (text : String) :
    (∀ peer, parse text = .ok peer ↔ Denotes text.toList peer)
      ∧ ∀ e, parse text = .error e ↔ Refused text.toList e := by
  refine ⟨fun peer => ⟨fun h => ?_, Denotes.parseChars_eq⟩,
    fun e => ⟨fun h => ?_, Refused.parseChars_eq⟩⟩
  · rcases denotes_or_refused text.toList with ⟨peer', hdenotes⟩ | ⟨e, hrefused⟩
    · cases h.symm.trans hdenotes.parseChars_eq
      exact hdenotes
    · cases h.symm.trans hrefused.parseChars_eq
  · rcases denotes_or_refused text.toList with ⟨peer, hdenotes⟩ | ⟨e', hrefused⟩
    · cases h.symm.trans hdenotes.parseChars_eq
    · cases h.symm.trans hrefused.parseChars_eq
      exact hrefused

end

/-! ## The text of an endpoint -/

/-- No bracket is part of an address. -/
theorem bracket_notMem_chars (ip : IPv6) : ']' ∉ ip.chars :=
  fun hmem => absurd (ip.isAddressChar_chars ']' hmem) (by decide)

/-- **The text of an endpoint denotes it.** -/
theorem denotes_chars (peer : Endpoint) : Denotes peer.chars peer := by
  have hchars : peer.chars
      = opening peer.secure
        ++ bracketed peer.addr.chars (':' :: (decimal peer.port.toNat ++ [])) := by
    simp only [chars, scheme, opening, bracketed, separator, List.append_assoc, List.append_nil]
    rfl
  rw [hchars]
  exact .bracketed (bracket_notMem_chars peer.addr) (IPAddress.parse?_chars peer.addr)
    (.port (isPort_decimal peer.port) (.inl rfl))

/-- **An endpoint survives as text.** -/
theorem parse_text (peer : Endpoint) : parse peer.text = .ok peer := by
  rw [parse, text, String.toList_ofList]
  exact (denotes_chars peer).parseChars_eq

end CoapNode.Endpoint
