import CoapNode.Proofs.Message.Options
import CoapNode.Proofs.Message.RoundTrip
import CoapNode.Proofs.Resource.Segments
import Mathlib.Data.List.Destutter
import Mathlib.Data.List.DropRight

set_option autoImplicit false

/-! # The path that a request is given

Whatever text a request is built from, its path is that text without needless slashes
(`Request.path_normal`): none at its front, none at its end, and one where several stood together.
Splitting a text into segments does not see such slashes (`pathSegments_append_slash`), and a text
without them is the join of its segments (`IsNormalPath.joinSegments_pathSegments`). So client and
server mean the same resource by a path, before and after it has travelled as options.
-/

namespace CoapNode

/-! ## Needless slashes -/

/-- At most one of two characters is a slash. -/
def NotBothSlashes (a b : Char) : Prop := ¬(a = '/' ∧ b = '/')

instance : DecidableRel NotBothSlashes := fun a b =>
  inferInstanceAs (Decidable ¬(a = '/' ∧ b = '/'))

/-- The characters of a path without the slashes at the front and at the end, and with one slash
for several that follow each other. -/
def collapseSlashes (path : List Char) : List Char :=
  ((path.destutter NotBothSlashes).dropWhile (· = '/')).rdropWhile (· = '/')

/-- A path without needless slashes. -/
def normalPath (path : String) : String := String.ofList (collapseSlashes path.toList)

/-- **A path has no needless slashes**: it neither begins nor ends with one, and no two follow each
other. -/
structure IsNormalPath (path : List Char) : Prop where
  front : path.head? ≠ some '/'
  back : path.getLast? ≠ some '/'
  between : path.IsChain NotBothSlashes

theorem head?_dropWhile_slash (path : List Char) :
    (path.dropWhile (· = '/')).head? ≠ some '/' := by
  intro hslash
  have hhead := List.head?_dropWhile_not (fun c => decide (c = '/')) path
  rw [hslash] at hhead
  cases hhead

theorem isNormalPath_collapseSlashes (path : List Char) : IsNormalPath (collapseSlashes path) where
  front := by
    intro hslash
    obtain ⟨dropped, hdropped⟩ : collapseSlashes path <+: _ := List.rdropWhile_prefix _ _
    refine head?_dropWhile_slash (path.destutter NotBothSlashes) ?_
    rw [← hdropped, List.head?_append, hslash, Option.some_or]
  back := by
    rw [collapseSlashes, List.rdropWhile, List.getLast?_reverse]
    exact head?_dropWhile_slash _
  between := by
    have hchain := List.isChain_destutter NotBothSlashes path
    exact List.IsChain.prefix (hchain.suffix (List.dropWhile_suffix _)) (List.rdropWhile_prefix _ _)

/-! ## Segments -/

section

variable {path : List Char}

/-- **A slash separates segments**, wherever it stands. -/
theorem pathSegments_append_slash (front back : List Char) :
    pathSegments (front ++ '/' :: back) = pathSegments front ++ pathSegments back := by
  rw [pathSegments, List.splitOn_append_cons_self, List.filter_append, pathSegments, pathSegments]

theorem pathSegments_slash_cons (path : List Char) :
    pathSegments ('/' :: path) = pathSegments path :=
  pathSegments_append_slash [] path

theorem pathSegments_concat_slash (path : List Char) :
    pathSegments (path ++ ['/']) = pathSegments path :=
  (pathSegments_append_slash path []).trans (List.append_nil _)

theorem pathSegments_dropWhile (path : List Char) :
    pathSegments (path.dropWhile (· = '/')) = pathSegments path := by
  induction path with
  | nil => rfl
  | cons c path ih =>
      by_cases hc : c = '/'
      · subst hc
        rw [List.dropWhile_cons_of_pos (by rfl), ih, pathSegments_slash_cons]
      · rw [List.dropWhile_cons_of_neg (by simpa using hc)]

theorem pathSegments_rdropWhile (path : List Char) :
    pathSegments (path.rdropWhile (· = '/')) = pathSegments path := by
  induction path using List.reverseRecOn with
  | nil => rfl
  | append_singleton path c ih =>
      by_cases hc : c = '/'
      · subst hc
        rw [List.rdropWhile_concat_pos _ _ _ (by rfl), ih, pathSegments_concat_slash]
      · rw [List.rdropWhile_concat_neg _ _ _ (by simpa using hc)]

/-- The induction is on what has not been looked at yet; `front` holds what has been kept. -/
theorem pathSegments_append_destutter' (front : List Char) (c : Char) (path : List Char) :
    pathSegments (front ++ path.destutter' NotBothSlashes c)
      = pathSegments (front ++ c :: path) := by
  induction path generalizing front c with
  | nil => rw [List.destutter'_nil]
  | cons d path ih =>
      by_cases hkept : NotBothSlashes c d
      · have hfront := ih (front ++ [c]) d
        rw [List.append_assoc, List.append_assoc] at hfront
        rw [List.destutter'_cons_pos _ hkept]
        exact hfront
      · obtain ⟨rfl, rfl⟩ := not_not.1 hkept
        rw [List.destutter'_cons_neg _ hkept, ih, pathSegments_append_slash,
          pathSegments_append_slash, pathSegments_slash_cons]

theorem pathSegments_destutter (path : List Char) :
    pathSegments (path.destutter NotBothSlashes) = pathSegments path := by
  cases path with
  | nil => rfl
  | cons c path => exact pathSegments_append_destutter' [] c path

/-- Needless slashes make no difference to the segments. -/
theorem pathSegments_collapseSlashes (path : List Char) :
    pathSegments (collapseSlashes path) = pathSegments path := by
  rw [collapseSlashes, pathSegments_rdropWhile, pathSegments_dropWhile, pathSegments_destutter]

/-- **A path without needless slashes is the join of its segments.** If one of the pieces between
its slashes were empty, the path would be empty itself, or the slash before or behind that piece
would be needless. -/
theorem IsNormalPath.joinSegments_pathSegments (h : IsNormalPath path) :
    joinSegments (pathSegments path) = path := by
  have hjoin : joinSegments (path.splitOn '/') = path := List.intercalate_splitOn '/'
  by_cases hempty : [] ∈ path.splitOn '/'
  · obtain ⟨own, more, hpieces⟩ := List.append_of_mem hempty
    rw [hpieces] at hjoin
    by_cases hown : own = [] <;> by_cases hmore : more = []
    · subst hown hmore
      obtain rfl : [] = path := hjoin
      rfl
    · rw [hown, List.nil_append, joinSegments_cons [] hmore] at hjoin
      exact absurd (congrArg List.head? hjoin.symm) h.front
    · rw [hmore, joinSegments_append hown (List.cons_ne_nil [] [])] at hjoin
      refine absurd ?_ h.back
      rw [← hjoin]
      exact List.getLast?_concat
    · rw [joinSegments_append hown (List.cons_ne_nil [] more), joinSegments_cons [] hmore] at hjoin
      have hslashes : ['/', '/'] <:+: path := ⟨joinSegments own, joinSegments more, by simp [← hjoin]⟩
      have hboth : ['/', '/'].IsChain NotBothSlashes := List.IsChain.infix h.between hslashes
      exact absurd ⟨rfl, rfl⟩ (List.isChain_cons_cons.1 hboth).1
  · have hpieces : pathSegments path = path.splitOn '/' := by
      refine List.filter_eq_self.2 fun piece hpiece => decide_eq_true ?_
      rintro rfl
      exact hempty hpiece
    rw [hpieces, hjoin]

/-- **Joining the segments of a path drops its needless slashes**, and nothing else. -/
theorem joinSegments_pathSegments (path : List Char) :
    joinSegments (pathSegments path) = collapseSlashes path := by
  rw [← pathSegments_collapseSlashes,
    (isNormalPath_collapseSlashes path).joinSegments_pathSegments]

end

/-! ## Requests -/

namespace Request

/-- **The options of a new request** are the segments of its path, in order. -/
theorem items_new (method : Method) (path : String) :
    (new method path).message.options.items
      = (pathSegments path.toList).map fun segment => ⟨Options.uriPath, Utf8.encode segment⟩ :=
  Options.items_foldl_push Options.uriPath Utf8.encode _ (List.forall_mem_nil _)

theorem uriPath_new (method : Method) (path : String) :
    (new method path).uriPath = (pathSegments path.toList).map Utf8.encode := by
  rw [uriPath, Options.values, items_new, List.filter_eq_self.2, List.map_map]
  · rfl
  · intro option hoption
    obtain ⟨segment, -, rfl⟩ := List.mem_map.1 hoption
    exact decide_eq_true rfl

theorem path_new (method : Method) (path : String) : (new method path).path = normalPath path := by
  rw [Request.path, pathChars_of_segments (uriPath_new method path), joinSegments_pathSegments,
    normalPath]

theorem writable_new {method : Method} {path : String}
    (h : ∀ segment ∈ pathSegments path.toList, (Utf8.encode segment).length ≤ 255) :
    (new method path).message.Writable where
  version := (by decide : (1 : UInt8) < 4)
  cls := by
    show method.code.cls < 8
    cases method <;> decide
  detail := by
    show method.code.detail < 32
    cases method <;> decide
  gaps := by
    intro gap hgap
    have hnumbers : ∀ n ∈ (new method path).message.options.items.map (·.number.toNat),
        n = 11 := by
      rw [items_new, List.map_map]
      exact List.forall_mem_map.2 fun _ _ => rfl
    rcases eq_of_mem_gapsFrom hnumbers hgap with rfl | rfl <;> decide
  lengths := by
    rw [items_new]
    exact List.forall_mem_map.2 fun segment hsegment => hasWireForm_of_le (h segment hsegment)

end Request

/-! ## Main result -/

/-- The first resource that was registered serves all requests for its path. -/
theorem Registry.Reached.serves_first {ω : Type} {registry : Registry ω} {entry : Entry ω}
    {later : List (Entry ω)} {serving : Bool} (h : registry.Reached (entry :: later) serving)
    {req : Request} (hpath : req.path = entry.path) :
    registry.find? req.path = some entry
      ∧ (serving = true → ∀ (observer : Observer ω) (reply : Reply) (world : ω),
        registry.dispatch observer req reply world
          = (·, registry) <$> entry.serve observer req reply world) := by
  obtain ⟨hentries, rfl⟩ := h.holds
  have hanswers : entry.Answers req.path := .inl hpath
  constructor
  · rw [find?, hentries]
    exact List.find?_cons_of_pos (Entry.matchesPath_iff.2 hanswers)
  · intro hserving observer reply world
    have hfront : registry.entries = [] ++ entry :: later := hentries
    exact dispatch_of_first hserving hfront (List.forall_mem_nil _) hanswers

/-- **The path of a request is the text it was built from, without needless slashes.** It is the
join of the pieces between the slashes of the text that are not empty, and the Uri-Path options are
the UTF-8 forms of these pieces, in order. A request that is built from this path has the same
options. If each piece has at most 255 bytes, the request is the same one after it has been written
and read, and so has the same path. Wherever a resource was registered first under this path, it is
found for the request and serves it. -/
theorem Request.path_normal (method : Method) (path : String) :
    let req := new method path
    let pieces := (path.toList.splitOn '/').filter (· ≠ [])
    req.path = normalPath path
      ∧ req.path = String.ofList (['/'].intercalate pieces)
      ∧ req.uriPath = pieces.map Utf8.encode
      ∧ (∀ again : Method, (new again req.path).uriPath = req.uriPath)
      ∧ ((∀ piece ∈ pieces, (Utf8.encode piece).length ≤ 255) →
          (Message.parse req.message.encode).map Request.mk = .ok req)
      ∧ ∀ (ω : Type) (registry : Registry ω) (entry : Entry ω) (later : List (Entry ω))
          (serving : Bool), registry.Reached (entry :: later) serving →
          entry.path = normalPath path →
          registry.find? req.path = some entry
            ∧ (serving = true → ∀ (observer : Observer ω) (reply : Reply) (world : ω),
              registry.dispatch observer req reply world
                = (·, registry) <$> entry.serve observer req reply world) := by
  intro req pieces
  have hpath : req.path = normalPath path := path_new method path
  have hjoin : joinSegments pieces = collapseSlashes path.toList :=
    joinSegments_pathSegments path.toList
  refine ⟨hpath, ?_, uriPath_new method path, fun again => ?_, fun hshort => ?_,
    fun ω registry entry later serving hreached hentry =>
      hreached.serves_first (hpath.trans hentry.symm)⟩
  · rw [hpath, normalPath, ← hjoin, joinSegments]
  · rw [uriPath_new, uriPath_new, hpath, normalPath, String.toList_ofList,
      pathSegments_collapseSlashes]
  · rw [Message.parse_encode (writable_new hshort)]
    rfl

/-- A registry in which a resource below others was registered first. -/
def sampleCatalogue : Registry Unit := ⟨4, [sampleShelf .none, sampleTree], [], true⟩

theorem reached_sampleCatalogue :
    sampleCatalogue.Reached [sampleShelf .none, sampleTree] true := by
  let clock : Simulation.ManualClock := {}
  have hshelf : ((Registry.empty 4).register "a/b" (sampleShelf .none).resource clock ()).value
      = (.ok 0, ⟨4, [sampleShelf .none], [], false⟩, clock) := rfl
  have htree : ((Registry.mk 4 [sampleShelf .none] [] false).register "a" sampleTree.resource clock
      ()).value = (.ok 1, ⟨4, [sampleShelf .none, sampleTree], [], false⟩, clock) := rfl
  exact .init (.register (.register (.empty 4) hshelf) htree)

theorem Request.path_normal_sampleCatalogue :
    let req := Request.new .put "//a///b/"
    req.path = "a/b" ∧ req.uriPath = [[0x61], [0x62]]
      ∧ (new .get "a/b").uriPath = req.uriPath
      ∧ (∀ piece ∈ [['a'], ['b']], (Utf8.encode piece).length ≤ 255)
      ∧ (Message.parse req.message.encode).map Request.mk = .ok req
      ∧ sampleCatalogue.Reached [sampleShelf .none, sampleTree] true
      ∧ (sampleShelf .none).path = normalPath "//a///b/"
      ∧ sampleCatalogue.find? req.path = some (sampleShelf .none)
      ∧ ∀ reply : Reply, sampleCatalogue.dispatch .idle req reply ()
        = (·, sampleCatalogue) <$> (sampleShelf .none).serve .idle req reply () := by
  intro req
  have hpieces : ("//a///b/".toList.splitOn '/').filter (· ≠ []) = [['a'], ['b']] := by
    decide +kernel
  have hshort : ∀ piece ∈ [['a'], ['b']], (Utf8.encode piece).length ≤ 255 := by decide
  have hnormal : normalPath "//a///b/" = "a/b" := by decide +kernel
  obtain ⟨hpath, -, hvalues, hagain, hread, hfound⟩ := path_normal .put "//a///b/"
  rw [hpieces] at hvalues hread
  rw [hnormal] at hpath
  have hsame := hagain .get
  rw [hpath] at hsame
  have hentry : (sampleShelf .none).path = normalPath "//a///b/" := hnormal.symm
  obtain ⟨hfind, hserve⟩ := hfound Unit _ _ _ _ reached_sampleCatalogue hentry
  exact ⟨hpath, hvalues, hsame, hshort, hread hshort, reached_sampleCatalogue, hentry, hfind,
    fun reply => hserve rfl .idle reply ()⟩

end CoapNode
