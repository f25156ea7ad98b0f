import Mathlib.Data.List.TakeWhile

/-!
# The parts of a URL

RFC 3986, appendix B: a text is cut into scheme, authority, path, query and fragment at its
delimiters, from the outside in. The fragment begins at the first `#`, the query at the first `?`
before it, and what is left is `scheme://authority` and the path. Nothing is decoded here.
-/

namespace Url

/-- The text before the first `c`, and the text after it if there is one. -/
def cut (c : Char) (text : List Char) : List Char × Option (List Char) :=
  (text.takeWhile (· ≠ c), (text.dropWhile (· ≠ c)).tail?)

/-- `scheme:`, if the text begins so, and what follows. -/
def cutScheme (text : List Char) : Option (List Char) × List Char :=
  match cut ':' text with
  | (scheme, some rest) =>
    if scheme ≠ [] ∧ '/' ∉ scheme then (some scheme, rest) else (none, text)
  | (_, none) => (none, text)

/-- `//authority`, if the text begins so, and what follows. -/
def cutAuthority : List Char → Option (List Char) × List Char
  | '/' :: '/' :: text => (some (text.takeWhile (· ≠ '/')), text.dropWhile (· ≠ '/'))
  | text => (none, text)

/-- The five parts of a URL. -/
structure Parts where
  scheme : Option (List Char)
  authority : Option (List Char)
  path : List Char
  query : Option (List Char)
  fragment : Option (List Char)
  deriving DecidableEq

/-- A text, cut into its parts. -/
def split (text : List Char) : Parts :=
  let (rest, fragment) := cut '#' text
  let (rest, query) := cut '?' rest
  let (scheme, rest) := cutScheme rest
  let (authority, path) := cutAuthority rest
  ⟨scheme, authority, path, query, fragment⟩

variable {c : Char} {text rest : List Char}

theorem ne_of_notMem (clean : c ∉ text) : ∀ d ∈ text, decide (d ≠ c) = true := by
  intro d mem
  apply decide_eq_true
  rintro rfl
  exact clean mem

/-- A text is cut at the first delimiter. -/
theorem cut_append (clean : c ∉ text) : cut c (text ++ c :: rest) = (text, some rest) := by
  have before := ne_of_notMem clean
  unfold cut
  rw [List.takeWhile_append_of_pos before, List.dropWhile_append_of_pos before]
  simp

/-- A text without the delimiter is not cut. -/
theorem cut_of_notMem (clean : c ∉ text) : cut c text = (text, none) := by
  have all := ne_of_notMem clean
  unfold cut
  rw [List.takeWhile_eq_self_iff.mpr all, List.dropWhile_eq_nil_iff.mpr all]
  rfl

/-- What comes before the delimiter is the text itself if there is none. -/
theorem cut_fst_eq_iff : (cut c text).1 = text ↔ c ∉ text := by
  constructor
  · intro same mem
    have passed := List.takeWhile_eq_self_iff.mp same c mem
    exact of_decide_eq_true passed rfl
  · intro clean
    rw [cut_of_notMem clean]

theorem cut_fst_append (clean : c ∉ text) : (cut c (text ++ rest)).1 = text ++ (cut c rest).1 :=
  List.takeWhile_append_of_pos (ne_of_notMem clean)

/-- The part of a text that still belongs to the path: up to the query or the fragment. -/
def pathPart (text : List Char) : List Char := (cut '?' (cut '#' text).1).1

theorem pathPart_prefix (text : List Char) : pathPart text <+: text :=
  (List.takeWhile_prefix _).trans (List.takeWhile_prefix _)

theorem pathPart_eq_iff : pathPart text = text ↔ '#' ∉ text ∧ '?' ∉ text := by
  constructor
  · intro same
    have fragment : (cut '#' text).1 = text := by
      refine (List.takeWhile_prefix _).eq_of_length_le ?_
      have shorter := (List.takeWhile_prefix (l := (cut '#' text).1) (· ≠ '?')).length_le
      have whole := congrArg List.length same
      exact whole.ge.trans shorter
    have query : (cut '?' text).1 = text := by
      rw [pathPart, fragment] at same
      exact same
    exact ⟨cut_fst_eq_iff.mp fragment, cut_fst_eq_iff.mp query⟩
  · rintro ⟨fragment, query⟩
    rw [pathPart, cut_fst_eq_iff.mpr fragment, cut_fst_eq_iff.mpr query]

/-- An authority ends where the path begins. -/
theorem cutAuthority_append {authority path : List Char} (bare : '/' ∉ authority) :
    cutAuthority ('/' :: '/' :: (authority ++ '/' :: path)) = (some authority, '/' :: path) := by
  have before := ne_of_notMem bare
  show (some ((authority ++ '/' :: path).takeWhile _), (authority ++ '/' :: path).dropWhile _) = _
  rw [List.takeWhile_append_of_pos before, List.dropWhile_append_of_pos before]
  simp

/-- The path of a URL with an authority begins after it. -/
theorem path_split {scheme authority path : List Char}
    (named : scheme ≠ [] ∧ ':' ∉ scheme ∧ '/' ∉ scheme) (bare : '/' ∉ authority)
    (fragment : '#' ∉ scheme ++ ':' :: '/' :: '/' :: (authority ++ '/' :: path))
    (query : '?' ∉ scheme ++ ':' :: '/' :: '/' :: (authority ++ '/' :: path)) :
    (split (scheme ++ ':' :: '/' :: '/' :: (authority ++ '/' :: path) ++ rest)).path =
      '/' :: path ++ pathPart rest := by
  unfold split
  dsimp only
  rw [cut_fst_append fragment, cut_fst_append query]
  have begins : scheme ++ ':' :: '/' :: '/' :: (authority ++ '/' :: path) ++ pathPart rest =
      scheme ++ ':' :: '/' :: '/' :: (authority ++ '/' :: (path ++ pathPart rest)) := by
    simp only [List.append_assoc, List.cons_append]
  show (cutAuthority (cutScheme (_ ++ pathPart rest)).2).2 = _
  rw [begins, cutScheme, cut_append named.2.1]
  dsimp only
  rw [if_pos ⟨named.1, named.2.2⟩]
  rw [cutAuthority_append bare]
  rfl

/-- A query without a fragment leaves the parts before it as they are. -/
theorem split_query {query : List Char} (path : '?' ∉ text) (before : '#' ∉ text)
    (after : '#' ∉ query) :
    split (text ++ '?' :: query) = { split text with query := some query } := by
  have whole : '#' ∉ text ++ '?' :: query := by
    simp only [List.mem_append, List.mem_cons, not_or]
    exact ⟨before, by decide, after⟩
  unfold split
  rw [cut_of_notMem whole, cut_of_notMem before]
  simp only [cut_append path, cut_of_notMem path]

end Url
