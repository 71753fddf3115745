import Mathlib.Data.List.Basic
import Mathlib.Data.List.TakeWhile

/-!
# Tokens

The tokens of a text are its maximal runs of characters that are not separators.  They are
the pieces of a split that are not empty, so that separators in front, at the end and next
to each other do not count.

`nextToken` takes one token off the front.  A text is used up by taking tokens off it
(`tokens_eq_cons`), and splitting at two kinds of separators is splitting at one kind and
then at the other (`tokens_or`).
-/

namespace Trtp.Lib

variable {α : Type*}

def tokens (sep : α → Bool) (s : List α) : List (List α) :=
  (s.splitOnP sep).filter fun w => !w.isEmpty

/-- The first token, and the text after the separator that ends it. -/
def nextToken (sep : α → Bool) (s : List α) : Option (List α × List α) :=
  let t := s.dropWhile sep
  if t.isEmpty then none
  else some (t.takeWhile fun c => !sep c, (t.dropWhile fun c => !sep c).tail)

variable {sep sep' : α → Bool} {s : List α}

@[simp] theorem tokens_nil (sep : α → Bool) : tokens sep ([] : List α) = [] := by
  simp [tokens]

theorem tokens_append_cons (s t : List α) {c : α} (hc : sep c = true) :
    tokens sep (s ++ c :: t) = tokens sep s ++ tokens sep t := by
  rw [tokens, List.splitOnP_append_cons s t hc, List.filter_append]
  rfl

theorem tokens_cons (sep : α → Bool) {c : α} (hc : sep c = true) (s : List α) :
    tokens sep (c :: s) = tokens sep s := by
  simpa using tokens_append_cons [] s hc

theorem tokens_dropWhile (sep : α → Bool) (s : List α) :
    tokens sep (s.dropWhile sep) = tokens sep s := by
  induction s with
  | nil => rfl
  | cons c s ih =>
    cases hc : sep c with
    | true => rw [List.dropWhile_cons_of_pos hc, ih, tokens_cons sep hc]
    | false => rw [List.dropWhile_cons_of_neg (by simp [hc])]

theorem tokens_of_forall (hs : s ≠ []) (h : ∀ c ∈ s, sep c = false) : tokens sep s = [s] := by
  rw [tokens, List.splitOnP_eq_singleton h]
  simp [hs]

theorem tokens_eq_nil (h : nextToken sep s = none) : tokens sep s = [] := by
  dsimp only [nextToken] at h
  rw [← tokens_dropWhile]
  split at h
  · rename_i hempty
    rw [List.isEmpty_iff.mp hempty, tokens_nil]
  · cases h

theorem nextToken_eq_some {w rest : List α} (h : nextToken sep s = some (w, rest)) :
    w ≠ [] ∧ (∀ c ∈ w, sep c = false) ∧
      (s.dropWhile sep = w ∧ rest = [] ∨
        ∃ c, sep c = true ∧ s.dropWhile sep = w ++ c :: rest) := by
  dsimp only [nextToken] at h
  split at h
  · cases h
  · rename_i hne
    rw [Option.some.injEq, Prod.mk.injEq] at h
    obtain ⟨rfl, rfl⟩ := h
    set t := s.dropWhile sep with ht
    have hsplit : t.takeWhile (fun c => !sep c) ++ t.dropWhile (fun c => !sep c) = t :=
      List.takeWhile_append_dropWhile
    refine ⟨?_, fun c hc => by simpa using List.mem_takeWhile_imp hc, ?_⟩
    · cases hcons : t with
      | nil => simp [hcons] at hne
      | cons c t' =>
        have hc : sep c = false := by
          have := List.head?_dropWhile_not sep s
          rw [← ht, hcons] at this
          simpa using this
        simp [hc]
    · cases hrest : t.dropWhile (fun c => !sep c) with
      | nil =>
        rw [hrest, List.append_nil] at hsplit
        exact .inl ⟨hsplit.symm, rfl⟩
      | cons c rest =>
        have hc : sep c = true := by
          have := List.head?_dropWhile_not (fun c => !sep c) t
          rw [hrest] at this
          simpa using this
        rw [hrest] at hsplit
        exact .inr ⟨c, hc, hsplit.symm⟩

theorem tokens_eq_cons {w rest : List α} (h : nextToken sep s = some (w, rest)) :
    tokens sep s = w :: tokens sep rest := by
  obtain ⟨hne, hword, hend⟩ := nextToken_eq_some h
  rw [← tokens_dropWhile]
  rcases hend with ⟨hs, rfl⟩ | ⟨c, hc, hs⟩
  · rw [hs, tokens_of_forall hne hword, tokens_nil]
  · rw [hs, tokens_append_cons _ _ hc, tokens_of_forall hne hword]
    rfl

theorem nextToken_length {w rest : List α} (h : nextToken sep s = some (w, rest)) :
    rest.length < s.length := by
  obtain ⟨hne, -, hend⟩ := nextToken_eq_some h
  have hpos : 0 < w.length := List.length_pos_iff.mpr hne
  have hle := (List.dropWhile_suffix sep (l := s)).length_le
  rcases hend with ⟨hs, rfl⟩ | ⟨c, hc, hs⟩
  · rw [hs] at hle
    exact hpos.trans_le hle
  · rw [hs, List.length_append, List.length_cons] at hle
    omega

theorem tokens_length_le (sep : α → Bool) (s : List α) : (tokens sep s).length ≤ s.length := by
  induction hn : s.length using Nat.strong_induction_on generalizing s with
  | _ n ih =>
    cases hnext : nextToken sep s with
    | none => simp [tokens_eq_nil hnext]
    | some r =>
      obtain ⟨w, rest⟩ := r
      have hlt := nextToken_length hnext
      have hrest := ih rest.length (by omega) rest rfl
      rw [tokens_eq_cons hnext, List.length_cons]
      omega

theorem length_le_of_mem_tokens {w : List α} (h : w ∈ tokens sep s) : w.length ≤ s.length := by
  induction hn : s.length using Nat.strong_induction_on generalizing s with
  | _ n ih =>
    cases hnext : nextToken sep s with
    | none => simp [tokens_eq_nil hnext] at h
    | some r =>
      obtain ⟨v, rest⟩ := r
      have hlt := nextToken_length hnext
      rw [tokens_eq_cons hnext, List.mem_cons] at h
      rcases h with rfl | h
      · dsimp only [nextToken] at hnext
        split at hnext
        · cases hnext
        · rw [Option.some.injEq, Prod.mk.injEq] at hnext
          rw [← hnext.1, ← hn]
          exact ((List.takeWhile_prefix _).length_le).trans (List.dropWhile_suffix _).length_le
      · have hrest := ih rest.length (by omega) h rfl
        omega

theorem splitOnP_or (sep sep' : α → Bool) (s : List α) :
    s.splitOnP (fun c => sep c || sep' c) = (s.splitOnP sep).flatMap (List.splitOnP sep') := by
  induction s with
  | nil => simp
  | cons c s ih =>
    rw [List.splitOnP_cons_eq_if_modifyHead, List.splitOnP_cons_eq_if_modifyHead, ih]
    obtain ⟨w, ws, hw⟩ := List.exists_cons_of_ne_nil (List.splitOnP_ne_nil sep s)
    obtain ⟨v, vs, hv⟩ := List.exists_cons_of_ne_nil (List.splitOnP_ne_nil sep' w)
    cases hc : sep c with
    | true => simp
    | false =>
      cases hc' : sep' c with
      | true => simp [hw, List.splitOnP_cons_eq_if_modifyHead, hc']
      | false => simp [hw, hv, List.splitOnP_cons_eq_if_modifyHead, hc']

theorem tokens_or (sep sep' : α → Bool) (s : List α) :
    tokens (fun c => sep c || sep' c) s = (tokens sep s).flatMap (tokens sep') := by
  have hskip : ∀ ws : List (List α),
      (ws.filter fun w => !w.isEmpty).flatMap (tokens sep') = ws.flatMap (tokens sep') := by
    intro ws
    induction ws with
    | nil => rfl
    | cons w ws ih =>
      cases w with
      | nil => simpa using ih
      | cons c w => simp [ih]
  rw [tokens, splitOnP_or, List.filter_flatMap, tokens, hskip]
  rfl

end Trtp.Lib
