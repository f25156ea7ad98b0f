import Mathlib.Data.List.Infix
import Revent.Url.Split

/-!
# The segments of a path

A path is split at its slashes, and a segment is percent-decoded: a percent sign with two
hexadecimal digits stands for an octet, and any other character for the octets of its UTF-8. What
comes out is a text if it is valid UTF-8.

Decoding never makes a segment longer, and makes it shorter by each octet that is spelled out. So
what was cut, or spells an octet out, is not decoded to the whole text (`decode_eq_iff_of_prefix`).
-/

namespace Url

/-- The segments of a path. -/
def segments (path : List Char) : List (List Char) := path.splitOn '/'

/-- The value of a hexadecimal digit. -/
def hexDigit (c : Char) : Option Nat :=
  if '0' ≤ c ∧ c ≤ '9' then some (c.toNat - '0'.toNat)
  else if 'a' ≤ c ∧ c ≤ 'f' then some (c.toNat - 'a'.toNat + 10)
  else if 'A' ≤ c ∧ c ≤ 'F' then some (c.toNat - 'A'.toNat + 10)
  else none

/-- The octet that two hexadecimal digits spell out. -/
def octet (high low : Char) : Option UInt8 :=
  match hexDigit high, hexDigit low with
  | some h, some l => some (UInt8.ofNat (16 * h + l))
  | _, _ => none

/-- The octets that a text stands for. -/
def percentDecode : List Char → List UInt8
  | '%' :: high :: low :: text =>
    match octet high low with
    | some byte => byte :: percentDecode text
    | none => String.utf8EncodeChar '%' ++ percentDecode (high :: low :: text)
  | c :: text => String.utf8EncodeChar c ++ percentDecode text
  | [] => []

/-- A segment, decoded, if that is a text. -/
def decode (segment : List Char) : Option String :=
  String.fromUTF8? (percentDecode segment).toByteArray

/-- An octet is spelled out somewhere in the text. -/
def SpellsOctet (text : List Char) : Prop :=
  ∃ high low, (octet high low).isSome ∧ ['%', high, low] <:+: text

/-- The octets of a text, as they are. -/
def octets (text : List Char) : List UInt8 := text.flatMap String.utf8EncodeChar

variable {c : Char} {text rest : List Char}

/-- A segment ends at the first slash. -/
theorem segments_cons (clean : '/' ∉ text) : segments (text ++ '/' :: rest) =
    text :: segments rest :=
  List.splitOn_append_cons_self_of_not_mem clean rest

theorem segments_singleton (clean : '/' ∉ text) : segments text = [text] :=
  List.splitOn_eq_singleton clean

theorem segments_eq_singleton_iff : segments text = [rest] ↔ text = rest ∧ '/' ∉ text := by
  constructor
  · intro single
    have clean : '/' ∉ text := by
      intro mem
      obtain ⟨front, back, rfl⟩ := List.append_of_mem mem
      rw [segments, List.splitOn_append_cons_self] at single
      have first := List.length_pos_of_ne_nil (List.splitOn_ne_nil '/' front)
      have second := List.length_pos_of_ne_nil (List.splitOn_ne_nil '/' back)
      have length := congrArg List.length single
      rw [List.length_append, List.length_singleton] at length
      omega
    rw [segments_singleton clean] at single
    exact ⟨List.singleton_inj.mp single, clean⟩
  · rintro ⟨rfl, clean⟩
    exact segments_singleton clean

/-! ## Decoding -/

theorem spellsOctet_cons : SpellsOctet (c :: text) ↔
    (∃ high low rest, c :: text = '%' :: high :: low :: rest ∧ (octet high low).isSome) ∨
      SpellsOctet text := by
  constructor
  · rintro ⟨high, low, spelled, inside⟩
    rcases List.infix_cons_iff.mp inside with ⟨rest, here⟩ | later
    · exact .inl ⟨high, low, rest, here.symm, spelled⟩
    · exact .inr ⟨high, low, spelled, later⟩
  · rintro (⟨high, low, rest, here, spelled⟩ | ⟨high, low, spelled, later⟩)
    · refine ⟨high, low, spelled, List.infix_cons_iff.mpr (.inl ⟨rest, here.symm⟩)⟩
    · exact ⟨high, low, spelled, List.infix_cons_iff.mpr (.inr later)⟩

theorem length_utf8_pos (c : Char) : 0 < (String.utf8EncodeChar c).length := by
  rw [String.length_utf8EncodeChar]
  exact c.utf8Size_pos

/-- Decoding leaves a text its octets, or makes it shorter if it spells octets out. -/
theorem percentDecode_cases (text : List Char) :
    (¬ SpellsOctet text ∧ percentDecode text = octets text) ∨
      (SpellsOctet text ∧ (percentDecode text).length < (octets text).length) := by
  unfold octets
  fun_induction percentDecode text with
  | case1 high low text byte spelled ih =>
    refine .inr ⟨spellsOctet_cons.mpr (.inl ⟨high, low, text, rfl, ?_⟩), ?_⟩
    · rw [spelled]
      rfl
    · have h := length_utf8_pos high
      have l := length_utf8_pos low
      have p := length_utf8_pos '%'
      have rest : (percentDecode text).length ≤
          (text.flatMap String.utf8EncodeChar).length := by
        rcases ih with ⟨-, same⟩ | ⟨-, less⟩
        · rw [same]
        · exact Nat.le_of_lt less
      simp only [List.length_cons, List.flatMap_cons, List.length_append]
      omega
  | case2 high low text unspelled ih =>
    have here : SpellsOctet ('%' :: high :: low :: text) ↔ SpellsOctet (high :: low :: text) := by
      rw [spellsOctet_cons, or_iff_right]
      rintro ⟨h, l, rest, same, spelled⟩
      cases same
      rw [unspelled] at spelled
      cases spelled
    rw [here]
    simp only [List.flatMap_cons, List.length_append] at ih ⊢
    rcases ih with ⟨clean, same⟩ | ⟨spells, less⟩
    · exact .inl ⟨clean, by rw [same]⟩
    · exact .inr ⟨spells, Nat.add_lt_add_left less _⟩
  | case3 c text short ih =>
    have here : SpellsOctet (c :: text) ↔ SpellsOctet text := by
      rw [spellsOctet_cons, or_iff_right]
      rintro ⟨h, l, rest, same, -⟩
      cases same
      exact short _ _ _ rfl rfl
    rw [here]
    simp only [List.flatMap_cons, List.length_append]
    rcases ih with ⟨clean, same⟩ | ⟨spells, less⟩
    · exact .inl ⟨clean, by rw [same]⟩
    · exact .inr ⟨spells, Nat.add_lt_add_left less _⟩
  | case4 =>
    refine .inl ⟨?_, rfl⟩
    rintro ⟨high, low, -, inside⟩
    cases List.infix_nil.mp inside

theorem spellsOctet_iff : SpellsOctet text ↔
    (percentDecode text).length < (octets text).length := by
  rcases percentDecode_cases text with ⟨clean, same⟩ | ⟨spells, less⟩
  · rw [same]
    exact iff_of_false clean (Nat.lt_irrefl _)
  · exact iff_of_true spells less

instance : Decidable (SpellsOctet text) := decidable_of_iff _ spellsOctet_iff.symm

example : SpellsOctet "100%25".toList ∧ ¬ SpellsOctet "100%".toList := by decide

/-- What is decoded to a text has its octets. -/
theorem decode_eq_some_iff {s : String} :
    decode text = some s ↔ percentDecode text = octets s.toList := by
  unfold decode String.fromUTF8?
  have bytes : s.toByteArray = (octets s.toList).toByteArray :=
    String.utf8Encode_toList.symm
  constructor
  · intro decoded
    split at decoded
    · have same := congrArg String.toByteArray (Option.some.inj decoded)
      rw [bytes] at same
      exact List.toByteArray_inj.mp same
    · cases decoded
  · intro same
    have valid : (percentDecode text).toByteArray.IsValidUTF8 := ⟨s.toList, by rw [same]; rfl⟩
    rw [dif_pos valid]
    refine congrArg some (String.toByteArray_inj.mp ?_)
    rw [bytes, ← same]
    rfl

/-- **What a text was cut to is decoded to the whole text** only if nothing was cut off and no octet
is spelled out. -/
theorem decode_eq_iff_of_prefix {whole : List Char} (cut : text <+: whole) :
    decode text = some (String.ofList whole) ↔ text = whole ∧ ¬ SpellsOctet whole := by
  rw [decode_eq_some_iff, String.toList_ofList]
  obtain ⟨rest, rfl⟩ := cut
  have octets_append : octets (text ++ rest) = octets text ++ octets rest := List.flatMap_append
  constructor
  · intro same
    have length := congrArg List.length same
    rw [octets_append, List.length_append] at length
    rcases percentDecode_cases text with ⟨clean, decoded⟩ | ⟨-, less⟩
    · cases rest with
      | nil =>
        rw [List.append_nil]
        exact ⟨rfl, clean⟩
      | cons c rest =>
        have some_octet := length_utf8_pos c
        rw [decoded, octets, octets, List.flatMap_cons, List.length_append] at length
        omega
    · omega
  · rintro ⟨same, clean⟩
    rw [← same] at clean ⊢
    rcases percentDecode_cases text with ⟨-, decoded⟩ | ⟨spells, -⟩
    · exact decoded
    · exact absurd spells clean

end Url
