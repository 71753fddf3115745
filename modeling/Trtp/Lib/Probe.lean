import Mathlib.Data.Nat.Find
import Mathlib.Data.Nat.ModEq
import Mathlib.Data.Fintype.Card
import Mathlib.Logic.Function.Basic

/-!
# Linear probing

A table of `n` slots, each empty or holding a key.  The search for a key starts at
its home slot and goes on, around the end of the table, to the first slot that is
empty or holds the key.

`NoGap` is the invariant of the technique: between the home slot of a key in the
table and its slot no slot is empty.  Under it a search finds every key that is there
(`probe_found`).  Filling the slot where a search has stopped keeps it
(`NoGap.insert`); emptying a slot does not.
-/

namespace Trtp.Lib

variable {κ : Type*} [DecidableEq κ]

def probe (slots : ℕ → Option κ) (n : ℕ) (k : κ) : ℕ → ℕ → Option ℕ
  | 0, _ => none
  | fuel + 1, i =>
    match slots i with
    | none => some i
    | some k' => if k' = k then some i else probe slots n k fuel ((i + 1) % n)

variable {slots : ℕ → Option κ} {n : ℕ} {home : κ → ℕ} {k : κ}

def Stops (slots : ℕ → Option κ) (k : κ) (i : ℕ) : Prop := slots i = none ∨ slots i = some k

theorem probe_of_stops {fuel i d : ℕ} (hi : i < n) (hd : d < fuel)
    (hstop : Stops slots k ((i + d) % n)) (hgo : ∀ e < d, ¬ Stops slots k ((i + e) % n)) :
    probe slots n k fuel i = some ((i + d) % n) := by
  induction fuel generalizing i d with
  | zero => exact absurd hd (Nat.not_lt_zero d)
  | succ fuel ih =>
    have hmod : i % n = i := Nat.mod_eq_of_lt hi
    cases d with
    | zero =>
      rw [Nat.add_zero, hmod] at hstop
      show probe slots n k (fuel + 1) i = some (i % n)
      rw [hmod]
      rcases hstop with h | h <;> simp [probe, h]
    | succ d =>
      have h0 : ¬ Stops slots k i := by
        have := hgo 0 (Nat.succ_pos d)
        rwa [Nat.add_zero, hmod] at this
      obtain ⟨k', hk'⟩ : ∃ k', slots i = some k' :=
        Option.ne_none_iff_exists'.mp fun hn => h0 (.inl hn)
      have hne : k' ≠ k := fun he => h0 (.inr (he ▸ hk'))
      have hshift : ∀ e, ((i + 1) % n + e) % n = (i + (e + 1)) % n := by
        intro e
        rw [Nat.mod_add_mod]
        congr 1
        omega
      simp only [probe, hk', if_neg hne]
      rw [ih (d := d) (Nat.mod_lt _ (by omega)) (by omega), hshift]
      · rwa [hshift]
      · intro e he
        rw [hshift]
        exact hgo (e + 1) (by omega)

omit [DecidableEq κ] in
/-- A search in a table that is not full stops within `n` steps. -/
theorem exists_first_stop {i : ℕ} (hfree : ∃ j < n, slots j = none) (hi : i < n) (k : κ) :
    ∃ d < n, Stops slots k ((i + d) % n) ∧ ∀ e < d, ¬ Stops slots k ((i + e) % n) := by
  obtain ⟨j, hj, hnone⟩ := hfree
  have hex : ∃ d, d < n ∧ Stops slots k ((i + d) % n) := by
    refine ⟨(n + j - i) % n, Nat.mod_lt _ (by omega), .inl ?_⟩
    have : (i + (n + j - i) % n) % n = j := by
      rw [Nat.add_mod_mod, show i + (n + j - i) = j + n by omega, Nat.add_mod_right,
        Nat.mod_eq_of_lt hj]
    rw [this, hnone]
  classical
  refine ⟨Nat.find hex, (Nat.find_spec hex).1, (Nat.find_spec hex).2, ?_⟩
  intro e he hs
  exact Nat.find_min hex he ⟨lt_trans he (Nat.find_spec hex).1, hs⟩

/-- No slot is empty between the home slot of a key and its slot. -/
def NoGap (slots : ℕ → Option κ) (n : ℕ) (home : κ → ℕ) : Prop :=
  ∀ i k, slots i = some k →
    ∃ d < n, (home k + d) % n = i ∧ ∀ e < d, slots ((home k + e) % n) ≠ none

def Distinct (slots : ℕ → Option κ) : Prop :=
  ∀ i j k, slots i = some k → slots j = some k → i = j

theorem add_mod_inj {h d e : ℕ} (hd : d < n) (he : e < n) (heq : (h + d) % n = (h + e) % n) :
    d = e := by
  have : d ≡ e [MOD n] := Nat.ModEq.add_left_cancel' h heq
  rwa [Nat.ModEq, Nat.mod_eq_of_lt hd, Nat.mod_eq_of_lt he] at this

theorem probe_found {fuel i : ℕ} (hgap : NoGap slots n home) (hdist : Distinct slots)
    (hfuel : n ≤ fuel) (hhome : home k < n) (hi : slots i = some k) :
    probe slots n k fuel (home k) = some i := by
  obtain ⟨d, hd, rfl, hbetween⟩ := hgap i k hi
  apply probe_of_stops hhome (lt_of_lt_of_le hd hfuel) (.inr hi)
  intro e he hs
  rcases hs with hnone | hsome
  · exact hbetween e he hnone
  · have := add_mod_inj (by omega) hd (hdist _ _ k hsome hi)
    omega

theorem probe_absent {fuel : ℕ} (hfree : ∃ j < n, slots j = none) (hfuel : n ≤ fuel)
    (hhome : home k < n) (hk : ∀ i, slots i ≠ some k) :
    ∃ d < n, probe slots n k fuel (home k) = some ((home k + d) % n) ∧
      slots ((home k + d) % n) = none ∧ ∀ e < d, slots ((home k + e) % n) ≠ none := by
  obtain ⟨d, hd, hstop, hgo⟩ := exists_first_stop hfree hhome k
  refine ⟨d, hd, ?_, hstop.resolve_right (hk _), fun e he hn => hgo e he (.inl hn)⟩
  exact probe_of_stops hhome (lt_of_lt_of_le hd hfuel) hstop hgo

omit [DecidableEq κ] in
theorem NoGap.insert (hgap : NoGap slots n home) {d : ℕ} (hd : d < n)
    (hbetween : ∀ e < d, slots ((home k + e) % n) ≠ none) :
    NoGap (Function.update slots ((home k + d) % n) (some k)) n home := by
  have hused : ∀ j, slots j ≠ none →
      Function.update slots ((home k + d) % n) (some k) j ≠ none := by
    intro j hj
    by_cases h : j = (home k + d) % n
    · rw [h, Function.update_self]
      exact Option.some_ne_none k
    · rwa [Function.update_of_ne h]
  intro i k' hi
  by_cases h : i = (home k + d) % n
  · rw [h, Function.update_self, Option.some.injEq] at hi
    subst hi
    exact ⟨d, hd, h.symm, fun e he => hused _ (hbetween e he)⟩
  · rw [Function.update_of_ne h] at hi
    obtain ⟨d', hd', hi', hb⟩ := hgap i k' hi
    exact ⟨d', hd', hi', fun e he => hused _ (hb e he)⟩

omit [DecidableEq κ] in
theorem Distinct.update (hdist : Distinct slots) {i : ℕ} {o : Option κ}
    (hk : ∀ j, j ≠ i → ∀ k, o = some k → slots j ≠ some k) :
    Distinct (Function.update slots i o) := by
  intro a b k ha hb
  by_cases hai : a = i
  · by_cases hbi : b = i
    · rw [hai, hbi]
    · rw [hai, Function.update_self] at ha
      rw [Function.update_of_ne hbi] at hb
      exact absurd hb (hk b hbi k ha)
  · rw [Function.update_of_ne hai] at ha
    by_cases hbi : b = i
    · rw [hbi, Function.update_self] at hb
      exact absurd ha (hk a hai k hb)
    · rw [Function.update_of_ne hbi] at hb
      exact hdist a b k ha hb

omit [DecidableEq κ] in
theorem exists_free {t : Finset κ} (hdist : Distinct slots)
    (hkeys : ∀ i k, slots i = some k → k ∈ t)
    (hcard : t.card < n) : ∃ j < n, slots j = none := by
  by_contra hfull
  have hsome : ∀ j : Fin n, ∃ k, slots j = some k := fun j =>
    Option.ne_none_iff_exists'.mp fun hn => hfull ⟨j, j.isLt, hn⟩
  choose f hf using hsome
  have hinj : Function.Injective f := by
    intro a b hab
    apply Fin.ext
    exact hdist a b (f a) (hf a) (hab ▸ hf b)
  have : Fintype.card (Fin n) ≤ t.card := by
    rw [← Finset.card_univ, ← Finset.card_map ⟨f, hinj⟩]
    apply Finset.card_le_card
    intro k hk
    obtain ⟨j, -, rfl⟩ := Finset.mem_map.mp hk
    exact hkeys j (f j) (hf j)
  rw [Fintype.card_fin] at this
  omega

end Trtp.Lib
