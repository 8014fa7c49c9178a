import JarSurvey.Text.Decimal
import Mathlib.Tactic

/-!
# Reading numbers undoes writing them

`natUpTo?_toString` and `intWithin?_toString`: **a number within the bounds is read back from its decimal
text**.  The text itself is harmless: it is not empty, and all its characters are digits, but for the sign
(`toString_nat_ne_empty`, `isDigit_of_mem_toString_nat`, `mem_toString_int`).  And whatever text is read, the
number lies within the bounds (`le_of_natUpTo?`, `within_of_intWithin?`), and the text has no other characters
(`mem_of_natUpTo?`).
-/

namespace JarSurvey.Text.Decimal

/-! ## The text of a number -/

lemma toList_toString_nat (n : Nat) : (toString n).toList = Nat.toDigits 10 n := by
  simp

lemma isDigit_of_mem_toString_nat {n : Nat} {c : Char} (h : c ∈ (toString n).toList) :
    c.isDigit = true := by
  rw [toList_toString_nat] at h
  exact Nat.isDigit_of_mem_toDigits (by decide) (by decide) h

lemma toString_nat_ne_empty (n : Nat) : (toString n).toList ≠ [] := by
  rw [toList_toString_nat]
  exact Nat.toDigits_ne_nil

lemma toList_toString_int (n : Int) :
    (toString n).toList =
      if 0 ≤ n then (toString n.toNat).toList else '-' :: (toString (-n).toNat).toList := by
  cases n with
  | ofNat m => rfl
  | negSucc m =>
      have hneg : ¬ 0 ≤ Int.negSucc m := by omega
      rw [if_neg hneg]
      show ("-" ++ Nat.repr (m + 1)).toList = _
      rw [String.toList_append]
      rfl

lemma mem_toString_int {n : Int} {c : Char} (h : c ∈ (toString n).toList) :
    c = '-' ∨ c.isDigit = true := by
  rw [toList_toString_int] at h
  split_ifs at h
  · exact Or.inr (isDigit_of_mem_toString_nat h)
  · rcases List.mem_cons.mp h with h | h
    · exact Or.inl h
    · exact Or.inr (isDigit_of_mem_toString_nat h)

/-! ## Reading -/

lemma digits?_eq (seen : Nat) (cs : List Char) (h : ∀ c ∈ cs, c.isDigit = true) :
    digits? seen cs = some (Nat.ofDigitChars 10 cs seen) := by
  induction cs generalizing seen with
  | nil => rfl
  | cons c cs ih =>
      rw [List.forall_mem_cons] at h
      have hc : '0' ≤ c ∧ c ≤ '9' := by
        simpa [Char.isDigit, Char.le_def] using h.1
      rw [digits?, if_pos hc, ih _ h.2, Nat.ofDigitChars_cons, Nat.mul_comm]

lemma number?_toString (n : Nat) : number? (toString n).toList = some n := by
  have hne := toString_nat_ne_empty n
  have hdigits : ∀ c ∈ (toString n).toList, c.isDigit = true := fun c => isDigit_of_mem_toString_nat
  have hn : Nat.ofDigitChars 10 (toString n).toList 0 = n := by
    rw [toList_toString_nat, Nat.ofDigitChars_ten_toDigits]
  cases h : (toString n).toList with
  | nil => exact absurd h hne
  | cons c cs =>
      rw [h] at hdigits hn
      rw [number?, digits?_eq 0 _ hdigits, hn]
      exact List.cons_ne_nil c cs

/-- **A number from zero to `max` is read back.** -/
lemma natUpTo?_toString {max n : Nat} (h : n ≤ max) : natUpTo? max (toString n) = some n := by
  have hnumber := number?_toString n
  have hdigits : ∀ c ∈ (toString n).toList, c.isDigit = true := fun c => isDigit_of_mem_toString_nat
  rw [natUpTo?]
  split
  · next rest heq =>
      rw [heq] at hdigits
      exact absurd (hdigits '+' (by simp)) (by decide)
  · rw [hnumber]
    simp [h]

/-- **A number from `min` to `max` is read back.** -/
lemma intWithin?_toString {min max n : Int} (hmin : min ≤ n) (hmax : n ≤ max) :
    intWithin? min max (toString n) = some n := by
  have htext := toList_toString_int n
  rw [intWithin?]
  split_ifs at htext with hsign
  · have hnumber := number?_toString n.toNat
    have hdigits : ∀ c ∈ (toString n.toNat).toList, c.isDigit = true :=
      fun c => isDigit_of_mem_toString_nat
    rw [htext]
    split
    · next rest heq =>
        rw [heq] at hdigits
        exact absurd (hdigits '-' (by simp)) (by decide)
    · next rest heq =>
        rw [heq] at hdigits
        exact absurd (hdigits '+' (by simp)) (by decide)
    · rw [hnumber]
      simp [hsign, hmin, hmax]
  · have hnumber := number?_toString (-n).toNat
    have hn : -((-n).toNat : Int) = n := by omega
    rw [htext]
    simp only [hnumber]
    show (if min ≤ -((-n).toNat : Int) ∧ -((-n).toNat : Int) ≤ max then some (-((-n).toNat : Int))
      else none) = some n
    rw [hn, if_pos ⟨hmin, hmax⟩]

/-! ## The numbers that are read -/

lemma of_bind_ite {α : Type} (p : α → Prop) [DecidablePred p] {x : Option α} {n : α}
    (h : (x >>= fun m => if p m then some m else none) = some n) : p n := by
  simp only [Option.bind_eq_bind, Option.bind_eq_some_iff] at h
  obtain ⟨m, -, hm⟩ := h
  split_ifs at hm with hp
  cases hm
  exact hp

lemma le_of_natUpTo? {max n : Nat} {text : String} (h : natUpTo? max text = some n) : n ≤ max := by
  rw [natUpTo?] at h
  split at h <;> exact of_bind_ite (· ≤ max) h

lemma within_of_intWithin? {min max n : Int} {text : String} (h : intWithin? min max text = some n) :
    min ≤ n ∧ n ≤ max := by
  rw [intWithin?] at h
  split at h <;> exact of_bind_ite (fun n => min ≤ n ∧ n ≤ max) h

/-! ## The texts that are read -/

lemma isDigit_of_digits? {seen n : Nat} {cs : List Char} (h : digits? seen cs = some n) :
    ∀ c ∈ cs, '0' ≤ c ∧ c ≤ '9' := by
  induction cs generalizing seen with
  | nil => simp
  | cons c cs ih =>
      rw [digits?] at h
      split_ifs at h with hc
      exact List.forall_mem_cons.mpr ⟨hc, ih h⟩

lemma isDigit_of_number? {n : Nat} {cs : List Char} (h : number? cs = some n) :
    ∀ c ∈ cs, '0' ≤ c ∧ c ≤ '9' := by
  cases cs with
  | nil => simp
  | cons c cs =>
      rw [number?] at h
      · exact isDigit_of_digits? h
      · exact List.cons_ne_nil c cs

/-- A number without a minus sign is written with digits, and perhaps a plus sign. -/
lemma mem_of_natUpTo? {max n : Nat} {text : String} (h : natUpTo? max text = some n) :
    ∀ c ∈ text.toList, c = '+' ∨ '0' ≤ c ∧ c ≤ '9' := by
  rw [natUpTo?] at h
  split at h
  · next rest heq =>
      obtain ⟨m, hm, -⟩ := Option.bind_eq_some_iff.mp h
      rw [heq]
      exact List.forall_mem_cons.mpr ⟨Or.inl rfl, fun c hc => Or.inr (isDigit_of_number? hm c hc)⟩
  · obtain ⟨m, hm, -⟩ := Option.bind_eq_some_iff.mp h
    exact fun c hc => Or.inr (isDigit_of_number? hm c hc)

end JarSurvey.Text.Decimal
