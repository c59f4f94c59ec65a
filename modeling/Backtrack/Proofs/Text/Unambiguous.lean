/-
# Texts that can be taken apart

A text that is put together from parts tells the parts if each of them shows where it ends, given
what may come after it (`Unambiguous`).  The rules here say how that is kept when parts are put next
to each other, before or after fixed characters, or in lists of any length.  A number in decimal
digits ends where the digits do (`unambiguous_nat`, `unambiguous_int`).
-/
import Mathlib.Data.List.TakeWhile

namespace Backtrack

variable {α β : Type}

/-- **What is written can be taken apart**: what was written, and the rest behind it, are known from
both together, if the rest is of some kind. -/
def Unambiguous (write : α → List Char) (Rest : List Char → Prop) : Prop :=
  ∀ ⦃a b : α⦄ ⦃r s : List Char⦄, Rest r → Rest s → write a ++ r = write b ++ s → a = b ∧ r = s

namespace Unambiguous

variable {write : α → List Char} {other : β → List Char} {R S : List Char → Prop}

/-- Fixed characters before what is written. -/
theorem after (h : Unambiguous write R) (fixed : List Char) :
    Unambiguous (fun a => fixed ++ write a) R := by
  intro a b r s hr hs same
  rw [List.append_assoc, List.append_assoc] at same
  exact h hr hs (List.append_cancel_left same)

/-- Fixed characters behind what is written. -/
theorem before (h : Unambiguous write R) {fixed : List Char} (marks : ∀ r, S r → R (fixed ++ r)) :
    Unambiguous (fun a => write a ++ fixed) S := by
  intro a b r s hr hs same
  rw [List.append_assoc, List.append_assoc] at same
  obtain ⟨rfl, rest⟩ := h (marks r hr) (marks s hs) same
  exact ⟨rfl, List.append_cancel_left rest⟩

/-- One part behind another one. -/
theorem pair (h : Unambiguous write R) (h' : Unambiguous other S)
    (marks : ∀ b r, S r → R (other b ++ r)) :
    Unambiguous (fun c : α × β => write c.1 ++ other c.2) S := by
  rintro ⟨a, b⟩ ⟨a', b'⟩ r s hr hs same
  simp only [List.append_assoc] at same
  obtain ⟨rfl, rest⟩ := h (marks b r hr) (marks b' s hs) same
  obtain ⟨rfl, final⟩ := h' hr hs rest
  exact ⟨rfl, final⟩

/-- Any number of parts of one kind, if none of them looks like what comes behind the last one. -/
theorem list (h : Unambiguous write R) (next : ∀ a r, R (write a ++ r)) (last : ∀ r, S r → R r)
    (apart : ∀ a r, ¬ S (write a ++ r)) : Unambiguous (fun as : List α => as.flatMap write) S := by
  intro as
  induction as with
  | nil =>
    rintro (_ | ⟨b, bs⟩) r s hr hs same
    · exact ⟨rfl, same⟩
    · simp only [List.flatMap_nil, List.nil_append, List.flatMap_cons, List.append_assoc] at same
      exact absurd (same ▸ hr) (apart b _)
  | cons a as ih =>
    rintro (_ | ⟨b, bs⟩) r s hr hs same
    · simp only [List.flatMap_nil, List.nil_append, List.flatMap_cons, List.append_assoc] at same
      exact absurd (same.symm ▸ hs) (apart a _)
    · have follows : ∀ (cs : List α) (t : List Char), S t → R (cs.flatMap write ++ t) := by
        rintro (_ | ⟨c, cs⟩) t ht
        · exact last t ht
        · rw [List.flatMap_cons, List.append_assoc]
          exact next c _
      simp only [List.flatMap_cons, List.append_assoc] at same
      obtain ⟨rfl, rest⟩ := h (follows as r hr) (follows bs s hs) same
      obtain ⟨rfl, final⟩ := ih hr hs rest
      exact ⟨rfl, final⟩

/-- What is written tells what it was written for. -/
theorem injective (h : Unambiguous write R) (none : R []) : Function.Injective write :=
  fun _ _ same => (h none none (congrArg (· ++ []) same)).1

end Unambiguous

/-! ## Numbers -/

/-- No digit comes first. -/
def NoDigit (r : List Char) : Prop := ∀ c ∈ r.head?, c.isDigit = false

theorem takeWhile_digits {ds r : List Char} (digits : ∀ c ∈ ds, c.isDigit = true) (h : NoDigit r) :
    (ds ++ r).takeWhile Char.isDigit = ds := by
  rw [List.takeWhile_append_of_pos digits]
  cases r with
  | nil => simp
  | cons c r => simp [h c rfl]

theorem isDigit_of_mem_toString (n : Nat) : ∀ c ∈ (toString n).toList, c.isDigit = true := by
  intro c hc
  rw [Nat.toString_eq_ofList_toDigits, String.toList_ofList] at hc
  exact Nat.isDigit_of_mem_toDigits (by decide) (by decide) hc

/-- **A number ends where the digits do.** -/
theorem unambiguous_nat : Unambiguous (fun n : Nat => (toString n).toList) NoDigit := by
  intro n m r s hr hs same
  have digits : (toString n).toList = (toString m).toList :=
    calc (toString n).toList = ((toString n).toList ++ r).takeWhile Char.isDigit :=
          (takeWhile_digits (isDigit_of_mem_toString n) hr).symm
      _ = ((toString m).toList ++ s).takeWhile Char.isDigit := by rw [same]
      _ = (toString m).toList := takeWhile_digits (isDigit_of_mem_toString m) hs
  have number : n = m := by
    have := congrArg (fun ds => Nat.ofDigitChars 10 ds 0) digits
    simpa [Nat.toString_eq_ofList_toDigits] using this
  subst number
  exact ⟨rfl, List.append_cancel_left same⟩

/-- A number starts with a digit. -/
theorem ne_cons_of_isDigit_eq_false {c : Char} (hc : c.isDigit = false) (n : Nat)
    (r s : List Char) : (toString n).toList ++ r ≠ c :: s := by
  intro same
  have digits := isDigit_of_mem_toString n
  cases hn : (toString n).toList with
  | nil => simp at hn
  | cons d ds =>
    rw [hn, List.cons_append] at same
    obtain ⟨rfl, -⟩ := List.cons.inj same
    rw [digits d (hn ▸ List.mem_cons_self)] at hc
    cases hc

/-- A negative number starts with its sign. -/
theorem toList_toString_negSucc (n : Nat) :
    (toString (Int.negSucc n)).toList = '-' :: (toString (n + 1)).toList := by
  change ("-" ++ (n + 1).repr).toList = _
  rw [String.toList_append]
  rfl

/-- **So does a number with a sign.** -/
theorem unambiguous_int : Unambiguous (fun i : Int => (toString i).toList) NoDigit := by
  have plain : ∀ n : Nat, (toString (Int.ofNat n)).toList = (toString n).toList := fun _ => rfl
  rintro (n | n) (m | m) r s hr hs same <;> simp only [plain, toList_toString_negSucc] at same
  · obtain ⟨rfl, rest⟩ := unambiguous_nat hr hs same
    exact ⟨rfl, rest⟩
  · exact absurd same (ne_cons_of_isDigit_eq_false rfl n r _)
  · exact absurd same.symm (ne_cons_of_isDigit_eq_false rfl m s _)
  · obtain ⟨number, rest⟩ := unambiguous_nat hr hs (List.cons.inj same).2
    obtain rfl : n = m := Nat.succ.inj number
    exact ⟨rfl, rest⟩

end Backtrack
