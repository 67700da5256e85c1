import CoapNode.Proofs.Resource.Routing
import CoapNode.Proofs.Text.Utf8

set_option autoImplicit false

/-! # Paths and their segments

The registry compares paths character by character, whereas a path is meant as a list of segments.
The two agree (`Entry.matchesPath_iff_segments`): a slash ends a segment, and no segment contains
one, so a path that continues another one behind a slash continues its list of segments, and the
other way round.
-/

namespace CoapNode

/-- **A segment of a path**: some characters, none of which is a slash. -/
def IsSegment (segment : List Char) : Prop := segment ≠ [] ∧ '/' ∉ segment

instance : DecidablePred IsSegment := fun segment =>
  inferInstanceAs (Decidable (segment ≠ [] ∧ '/' ∉ segment))

section

variable {segments own asked : List (List Char)}

theorem splitOn_joinSegments (h : ∀ segment ∈ segments, IsSegment segment) (hne : segments ≠ []) :
    (joinSegments segments).splitOn '/' = segments :=
  List.splitOn_intercalate '/' (fun segment hsegment => (h segment hsegment).2) hne

/-- **The segments of a path are found again** in its text. -/
theorem pathSegments_joinSegments (h : ∀ segment ∈ segments, IsSegment segment) :
    pathSegments (joinSegments segments) = segments := by
  cases segments with
  | nil => rfl
  | cons first rest =>
      rw [pathSegments, splitOn_joinSegments h (List.cons_ne_nil first rest), List.filter_eq_self]
      intro segment hsegment
      exact decide_eq_true (h segment hsegment).1

theorem joinSegments_inj (hown : ∀ segment ∈ own, IsSegment segment)
    (hasked : ∀ segment ∈ asked, IsSegment segment) :
    joinSegments asked = joinSegments own ↔ asked = own := by
  refine ⟨fun h => ?_, congrArg joinSegments⟩
  rw [← pathSegments_joinSegments hasked, h, pathSegments_joinSegments hown]

theorem joinSegments_cons (segment : List Char) (hne : segments ≠ []) :
    joinSegments (segment :: segments) = segment ++ '/' :: joinSegments segments := by
  rw [joinSegments, List.intercalate_cons_of_ne_nil hne, List.append_assoc, List.singleton_append,
    joinSegments]

theorem joinSegments_append (hfront : own ≠ []) (hback : asked ≠ []) :
    joinSegments (own ++ asked) = joinSegments own ++ '/' :: joinSegments asked := by
  induction own with
  | nil => exact absurd rfl hfront
  | cons segment own ih =>
      by_cases hlast : own = []
      · rw [hlast, List.singleton_append, joinSegments_cons segment hback]
        exact congrArg (· ++ _) List.intercalate_singleton.symm
      · have hmore : own ++ asked ≠ [] := fun h => hlast (List.append_eq_nil_iff.1 h).1
        rw [List.cons_append, joinSegments_cons segment hmore, ih hlast,
          joinSegments_cons segment hlast, List.append_assoc, List.cons_append]

/-- **A path continues another one behind a slash exactly if its segments continue those of the
other one.** -/
theorem joinSegments_slash_prefix_iff (hne : own ≠ []) (hown : ∀ segment ∈ own, IsSegment segment)
    (hasked : ∀ segment ∈ asked, IsSegment segment) :
    joinSegments own ++ ['/'] <+: joinSegments asked ↔ own <+: asked ∧ own ≠ asked := by
  constructor
  · rintro ⟨rest, hrest⟩
    have hasked' : asked ≠ [] := by
      rintro rfl
      simp [joinSegments] at hrest
    have hsegments : own ++ rest.splitOn '/' = asked := by
      rw [← splitOn_joinSegments hasked hasked', ← hrest, List.append_assoc, List.singleton_append,
        List.splitOn_append_cons_self, splitOn_joinSegments hown hne]
    refine ⟨⟨_, hsegments⟩, ?_⟩
    rintro rfl
    exact List.splitOn_ne_nil '/' rest (List.append_right_eq_self.1 hsegments)
  · rintro ⟨⟨more, rfl⟩, hlonger⟩
    have hmore : more ≠ [] := by
      rintro rfl
      exact hlonger (List.append_nil own).symm
    rw [joinSegments_append hne hmore]
    exact ⟨joinSegments more, by rw [List.append_assoc, List.singleton_append]⟩

end

/-! ## Requests -/

theorem Request.pathChars_of_segments {req : Request} {asked : List (List Char)}
    (h : req.uriPath = asked.map Utf8.encode) : req.pathChars = joinSegments asked := by
  rw [pathChars, h, List.map_map]
  congr 1
  refine (List.map_congr_left fun segment _ => ?_).trans (List.map_id asked)
  exact Utf8.decodeLossy_encode segment

/-- **A path belongs to an entry by its segments.** The entry has a path of one segment or more, and
each Uri-Path option of the request is the UTF-8 form of a segment. Then the path of the request
belongs to the entry exactly if both have the same segments or, where the entry answers for what is
below it, the segments of the request continue those of the entry. -/
theorem Entry.matchesPath_iff_segments {ω : Type} {entry : Entry ω} {req : Request}
    {own asked : List (List Char)} (hne : own ≠ []) (hown : ∀ segment ∈ own, IsSegment segment)
    (hpath : entry.path = String.ofList (joinSegments own))
    (hasked : ∀ segment ∈ asked, IsSegment segment)
    (hreq : req.uriPath = asked.map Utf8.encode) :
    entry.matchesPath req.path = true
      ↔ asked = own
        ∨ entry.flags.contains .subResources = true ∧ own <+: asked ∧ own ≠ asked := by
  have hslash : (entry.path ++ "/").toList = joinSegments own ++ ['/'] := by
    rw [String.toList_append, hpath, String.toList_ofList]
    rfl
  have hsame : req.path = entry.path ↔ asked = own := by
    rw [hpath, Request.path, Request.pathChars_of_segments hreq, String.ofList_inj,
      joinSegments_inj hown hasked]
  rw [matchesPath_iff, Answers, hsame, hslash, Request.path, Request.pathChars_of_segments hreq,
    String.toList_ofList, joinSegments_slash_prefix_iff hne hown hasked]

/-- A resource that is registered under two segments and answers for what is below them. -/
def sampleShelf (flags : Flags) : Entry Unit := sampleEntry "a/b" .get flags

/-- What begins with the same characters is not below a path, unless it begins with the same
segments. -/
theorem Entry.matchesPath_iff_sampleShelf :
    let below := Request.get "a/b/\u00E9"
    let beside := Request.get "a/b\u00E9"
    (∀ segment ∈ [['a'], ['b']], IsSegment segment)
      ∧ (∀ segment ∈ [['a'], ['b'], ['\u00E9']], IsSegment segment)
      ∧ (∀ segment ∈ [['a'], ['b', '\u00E9']], IsSegment segment)
      ∧ below.uriPath = [['a'], ['b'], ['\u00E9']].map Utf8.encode
      ∧ beside.uriPath = [['a'], ['b', '\u00E9']].map Utf8.encode
      ∧ (sampleShelf .subResources).matchesPath below.path = true
      ∧ ¬(sampleShelf .none).matchesPath below.path = true
      ∧ ¬(sampleShelf .subResources).matchesPath beside.path = true := by
  intro below beside
  have hown : ∀ segment ∈ [['a'], ['b']], IsSegment segment := by decide
  have hbelow : ∀ segment ∈ [['a'], ['b'], ['\u00E9']], IsSegment segment := by decide
  have hbeside : ∀ segment ∈ [['a'], ['b', '\u00E9']], IsSegment segment := by decide
  have hreq : below.uriPath = [['a'], ['b'], ['\u00E9']].map Utf8.encode := by decide +kernel
  have hreq' : beside.uriPath = [['a'], ['b', '\u00E9']].map Utf8.encode := by decide +kernel
  have hpath : "a/b" = String.ofList (joinSegments [['a'], ['b']]) := by decide +kernel
  have hne : [['a'], ['b']] ≠ [] := List.cons_ne_nil _ _
  refine ⟨hown, hbelow, hbeside, hreq, hreq', ?_, ?_, ?_⟩
  · exact (matchesPath_iff_segments hne hown hpath hbelow hreq).2 (by decide)
  · rw [matchesPath_iff_segments hne hown hpath hbelow hreq]
    decide
  · rw [matchesPath_iff_segments hne hown hpath hbeside hreq']
    decide

end CoapNode
