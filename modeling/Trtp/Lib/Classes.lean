import Mathlib.Computability.RegularExpressions

/-!
# Character classes

Mathlib's regular expressions match single characters.  A bracket expression is the sum of
the characters in it, and its star matches the words with all characters in the bracket.
-/

namespace Trtp.Lib

open RegularExpression Computability

variable {α : Type*}

def bracket (cs : List α) : RegularExpression α := (cs.map char).sum

@[simp] theorem bracket_nil : bracket ([] : List α) = 0 := rfl

@[simp] theorem bracket_cons (c : α) (cs : List α) : bracket (c :: cs) = char c + bracket cs := rfl

theorem mem_bracket {cs w : List α} : w ∈ (bracket cs).matches' ↔ ∃ c ∈ cs, w = [c] := by
  induction cs with
  | nil => simp [Language.notMem_zero]
  | cons c cs ih =>
    rw [bracket_cons, matches'_add, Language.mem_add, ih, matches'_char]
    constructor
    · rintro (hw | ⟨c', hc', rfl⟩)
      · obtain rfl : w = [c] := hw
        exact ⟨c, List.mem_cons_self, rfl⟩
      · exact ⟨c', List.mem_cons_of_mem c hc', rfl⟩
    · rintro ⟨c', hc', rfl⟩
      rcases List.mem_cons.mp hc' with rfl | hc'
      · exact .inl rfl
      · exact .inr ⟨c', hc', rfl⟩

theorem mem_star_bracket {cs w : List α} :
    w ∈ (bracket cs).star.matches' ↔ ∀ c ∈ w, c ∈ cs := by
  rw [matches'_star, Language.mem_kstar]
  constructor
  · rintro ⟨words, rfl, hwords⟩ c hc
    obtain ⟨word, hword, hc⟩ := List.mem_flatten.mp hc
    obtain ⟨c', hc', rfl⟩ := mem_bracket.mp (hwords word hword)
    rw [List.mem_singleton.mp hc]
    exact hc'
  · intro h
    refine ⟨w.map fun c => [c], ?_, ?_⟩
    · induction w with
      | nil => rfl
      | cons c w ih =>
        rw [List.map_cons, List.flatten_cons, ← ih fun c' hc' => h c' (List.mem_cons_of_mem c hc')]
        rfl
    · intro word hword
      obtain ⟨c, hc, rfl⟩ := List.mem_map.mp hword
      exact mem_bracket.mpr ⟨c, h c hc, rfl⟩

theorem mem_char_mul {c : α} {P : RegularExpression α} {w : List α} :
    w ∈ (char c * P).matches' ↔ ∃ w' ∈ P.matches', w = c :: w' := by
  rw [matches'_mul, Language.mem_mul, matches'_char]
  constructor
  · rintro ⟨a, ha, w', hw', rfl⟩
    obtain rfl : a = [c] := ha
    exact ⟨w', hw', rfl⟩
  · rintro ⟨w', hw', rfl⟩
    exact ⟨[c], Set.mem_singleton _, w', hw', rfl⟩

theorem mem_star_bracket_mul {cs : List α} {P : RegularExpression α} {w : List α} :
    w ∈ ((bracket cs).star * P).matches' ↔
      ∃ a, (∀ c ∈ a, c ∈ cs) ∧ ∃ w' ∈ P.matches', w = a ++ w' := by
  rw [matches'_mul, Language.mem_mul]
  constructor
  · rintro ⟨a, ha, w', hw', rfl⟩
    exact ⟨a, mem_star_bracket.mp ha, w', hw', rfl⟩
  · rintro ⟨a, ha, w', hw', rfl⟩
    exact ⟨a, mem_star_bracket.mpr ha, w', hw', rfl⟩

end Trtp.Lib
