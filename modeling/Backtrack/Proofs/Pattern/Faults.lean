/-
# Where faults are

A reader of a unit reports a fault by an offset from the start of the unit.  Like the width of what
it reads, the offset is bounded by the bytes that are left, so that every fault is in the source or
at its end (`Lexer.offset_of_fresh`).  Most faults are at the start.  The others are a name, which
starts where it was found, and what a class has inside.

A fault of building the tree is at a lexeme or at the end, and a fault of the names at a reference.
So the errors of parsing have their place in the source as well (`Pattern.offset_of_parse`).
-/
import Backtrack.Proofs.Pattern.Braces

namespace Backtrack.Lexer

variable {flags : Flags} {captures pos nodes : Nat} {names : List Bytes} {unicode : Bool}
  {b : UInt8} {rest : Bytes} {f : Fault}

/-! ## 1. Escapes and classes -/

theorem offset_of_property? (h : property? unicode b rest = some (.error f)) :
    f.offset ≤ rest.length + 2 := by
  unfold property? at h
  split at h
  · have h := Option.some.inj h
    split at h
    · split at h
      · obtain rfl := Except.error.inj h
        exact Nat.zero_le _
      · split at h
        · cases h
        · obtain rfl := Except.error.inj h
          simp only [List.length_cons]
          omega
    · obtain rfl := Except.error.inj h
      exact Nat.zero_le _
  · cases h

theorem offset_of_member (h : member unicode b rest = .error f) : f.offset ≤ rest.length + 1 := by
  unfold member at h
  split at h
  · cases h
  split at h
  · obtain rfl := Except.error.inj h
    exact Nat.zero_le _
  · split at h
    · cases h
    split at h
    · cases h
    · rename_i read
      obtain rfl := Except.error.inj h
      exact offset_of_property? read
    split at h
    · cases h
    split at h
    · cases h
    split at h
    · cases h
    · obtain rfl := Except.error.inj h
      exact Nat.zero_le _

theorem offset_of_classBody {k : CharClass} {s : Bytes}
    (h : classBody unicode pos nodes k s = .error f) :
    pos ≤ f.offset ∧ f.offset ≤ pos + s.length := by
  fun_induction classBody unicode pos nodes k s with
  | case1 =>
    obtain rfl := Except.error.inj h
    exact ⟨Nat.le_refl _, Nat.le_refl _⟩
  | case2 => cases h
  | case3 pos nodes k b rest _ f' hm =>
    have bounded := offset_of_member hm
    obtain rfl := Except.error.inj h
    simp only [List.length_cons]
    omega
  | case4 pos nodes k b rest _ e w hm ih | case5 pos nodes k b rest _ e w hm ih =>
    have width := width_of_member hm
    have later := ih h
    rw [List.length_drop] at later
    simp only [List.length_cons]
    omega
  | case6 pos nodes k b rest _ c w hm single more left ih =>
    have width := width_of_member hm
    have length := congrArg List.length left
    have later := ih h
    simp only [List.length_drop, List.length_cons] at length later ⊢
    omega
  | case7 pos nodes k b rest _ c w hm x more left _ f' hf =>
    have width := width_of_member hm
    have length := congrArg List.length left
    have bounded := offset_of_member hf
    obtain rfl := Except.error.inj h
    simp only [List.length_drop, List.length_cons] at length ⊢
    omega
  | case8 pos nodes k b rest =>
    obtain rfl := Except.error.inj h
    exact ⟨Nat.le_refl _, Nat.le_add_right _ _⟩
  | case9 pos nodes k b rest _ c w hm x more left _ d v hd _ ih =>
    have width := width_of_member hm
    have width' := width_of_member hd
    have length := congrArg List.length left
    have later := ih h
    simp only [List.length_drop, List.length_cons] at length later ⊢
    omega
  | case10 pos nodes k b rest _ c w hm =>
    have width := width_of_member hm
    obtain rfl := Except.error.inj h
    simp only [List.length_cons]
    omega
  | case11 pos nodes k b rest _ c w hm single x more left _ m v notchar hm2 _ ih =>
    have width := width_of_member hm
    have length := congrArg List.length left
    have later := ih h
    simp only [List.length_drop, List.length_cons] at length later ⊢
    omega
  | case12 pos nodes k b rest _ c w hm single _ ih =>
    have width := width_of_member hm
    have later := ih h
    rw [List.length_drop] at later
    simp only [List.length_cons]
    omega

theorem offset_of_charClass (h : charClass unicode pos rest = .error f) :
    pos ≤ f.offset ∧ f.offset ≤ pos + rest.length + 1 := by
  unfold charClass at h
  split at h
  · have := offset_of_classBody h
    simp only [List.length_cons]
    omega
  · have := offset_of_classBody h
    omega

/-! ## 2. Lexemes -/

theorem offset_of_opening (h : opening names rest = .error f) : f.offset ≤ rest.length + 1 := by
  unfold opening at h
  split at h
  all_goals try cases h
  · split at h
    · obtain rfl := Except.error.inj h
      simp only [List.length_cons]
      omega
    · rename_i closed
      have length := Ascii.length_of_cut? closed
      split at h
      · obtain rfl := Except.error.inj h
        simp only [List.length_cons]
        omega
      split at h
      · obtain rfl := Except.error.inj h
        simp only [List.length_cons]
        omega
      · cases h
  · simp only [List.length_cons]
    omega

/-- Only an unknown property is not at fault where its escape starts. -/
theorem offset_of_escape (h : escape flags captures rest = .error f) :
    f.offset ≤ rest.length + 1 := by
  unfold escape at h
  split at h
  · obtain rfl := Except.error.inj h
    exact Nat.zero_le _
  rename_i e more
  dsimp only at h
  split at h
  · cases h
  split at h
  · cases h
  split at h
  · cases h
  split at h
  · split at h
    · split at h
      · obtain rfl := Except.error.inj h
        exact Nat.zero_le _
      · cases h
    · split at h
      · obtain rfl := Except.error.inj h
        exact Nat.zero_le _
      · split at h
        · cases h
        · obtain rfl := Except.error.inj h
          exact Nat.zero_le _
  split at h
  · cases h
  · rename_i read
    obtain rfl := Except.error.inj h
    exact offset_of_property? read
  split at h
  · split at h
    · cases h
    split at h
    · obtain rfl := Except.error.inj h
      exact Nat.zero_le _
    · split at h
      · cases h
      · obtain rfl := Except.error.inj h
        exact Nat.zero_le _
  · split at h
    · cases h
    · obtain rfl := Except.error.inj h
      exact Nat.zero_le _

/-- **A fault is within the bytes that are left, or right after them.** -/
theorem offset_of_fresh (h : fresh flags captures names pos b rest = .error f) :
    f.offset ≤ rest.length + 1 := by
  unfold fresh at h
  split at h
  case h_1 =>
    split at h
    · cases h
    · rename_i read
      obtain rfl := Except.error.inj h
      exact offset_of_opening read
  case h_4 =>
    split at h
    · cases h
    · rename_i read
      obtain rfl := Except.error.inj h
      have := offset_of_charClass read
      simp only
      omega
  case h_8 => exact offset_of_escape h
  all_goals
    repeat' split at h
    all_goals cases h
    all_goals exact Nat.zero_le _

theorem offset_of_lexeme {before : Before}
    (h : lexeme flags captures names pos before b rest = .error f) : f.offset ≤ rest.length + 1 := by
  unfold lexeme at h
  split at h
  · exact offset_of_fresh h
  · split at h
    · obtain rfl := Except.error.inj h
      exact Nat.zero_le _
    · obtain rfl := Except.error.inj h
      exact Nat.zero_le _
    · exact offset_of_fresh h
  · split at h
    · obtain rfl := Except.error.inj h
      exact Nat.zero_le _
    · cases h
    · exact offset_of_fresh h

/-! ## 3. Sources -/

theorem offset_of_scan {before : Before} {s : Bytes}
    (h : (scan flags captures pos names before s).2 = some f) : f.offset ≤ pos + s.length := by
  fun_induction scan flags captures pos names before s with
  | case1 => cases h
  | case2 pos names before b rest f' hf =>
    have bounded := offset_of_lexeme hf
    obtain rfl := Option.some.inj h
    simp only [List.length_cons]
    omega
  | case3 pos names before b rest r hr later ih =>
    have fits := fits_of_lexeme hr
    have positive := fits.positive
    have bounded := fits.bounded
    have further := ih h
    rw [List.length_drop] at further
    simp only [List.length_cons]
    omega

end Backtrack.Lexer

namespace Backtrack.Pattern

open Backtrack.Parser

/-- **A syntax error is at an offset of the source or at its end.**  A fault comes from reading a
lexeme, from building the tree, or from the end of the source, and each of these says where it
is. -/
theorem offset_of_parse {source : Bytes} {flags : Flags} {e : SyntaxError}
    (h : parse source flags = .error e) : e.offset ≤ source.length := by
  have starts : ∀ l ∈ (Lexer.lexemes flags source).1, l.start ≤ source.length := by
    intro l hl
    obtain ⟨names, before, b, rest, r, place, -, -⟩ := Lexer.exists_comesTo_of_mem hl
    exact Nat.le_of_lt place.pos_lt
  obtain ⟨f, rfl, failed | fault | ⟨-, rfl⟩ | undefined⟩ := exists_fault_of_parse h
  · obtain ⟨l, hl, start, -⟩ := fault_of_run failed
    exact start ▸ starts l hl
  · have := Lexer.offset_of_scan fault
    rwa [Nat.zero_add] at this
  · exact Nat.le_refl _
  · obtain ⟨l, hl, _, _, _, rfl⟩ := exists_of_undefinedName? undefined
    exact starts l hl

end Backtrack.Pattern
