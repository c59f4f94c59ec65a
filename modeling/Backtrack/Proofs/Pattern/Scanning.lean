/-
# Where a scan comes to

A source is read lexeme by lexeme, and what a lexeme is depends on the names met before it and on
what stands right before it.  `Lexer.ComesTo` lists the places a scan of a source comes to, each
with what is known there; it goes on for as long as lexemes can be read.

* Every lexeme of a source was read at such a place (`exists_comesTo_of_mem`).
* At such a place the lexemes fall into those that stop there at the latest and those the scan
  of what is left gives (`ComesTo.lexemes_eq`), so a fault there is the fault of the source, and no
  fault is reported before it.
-/
import Backtrack.Proofs.Pattern.Extents

namespace Backtrack.Lexer

variable {flags : Flags} {source : Bytes}

/-! ## 1. Places -/

/-- A scan comes to a byte: its position, the names met so far, what stands before it and the bytes
that are left. -/
inductive ComesTo (flags : Flags) (source : Bytes) :
    Nat → List Bytes → Before → Bytes → Prop
  | start : ComesTo flags source 0 [] .nothing source
  | next {pos : Nat} {names : List Bytes} {before : Before} {b : UInt8} {rest : Bytes}
      {r : Reading} (h : ComesTo flags source pos names before (b :: rest))
      (read : lexeme flags (countCaptures source) names pos before b rest = .ok r) :
      ComesTo flags source (pos + r.width) (namesAfter names r.token) (Before.of r.token)
        (rest.drop (r.width - 1))

/-- What is left is what comes from the position on. -/
theorem ComesTo.drop_eq {pos : Nat} {names : List Bytes} {before : Before} {s : Bytes}
    (h : ComesTo flags source pos names before s) : source.drop pos = s := by
  induction h with
  | start => rfl
  | next h read ih =>
    rename_i pos names before b rest r
    have := (fits_of_lexeme read).positive
    have split : pos + r.width = pos + (r.width - 1 + 1) := by omega
    rw [split, ← List.drop_drop, ih, List.drop_succ_cons]

theorem ComesTo.pos_lt {pos : Nat} {names : List Bytes} {before : Before} {b : UInt8} {rest : Bytes}
    (h : ComesTo flags source pos names before (b :: rest)) : pos < source.length := by
  have := congrArg List.length h.drop_eq
  rw [List.length_drop, List.length_cons] at this
  omega

/-! ## 2. Lexemes before and after a place -/

/-- A scan only goes forward: its lexemes and its fault are not before the position it starts at. -/
theorem le_of_scan {captures pos : Nat} {names : List Bytes} {before : Before} {s : Bytes} :
    (∀ l ∈ (scan flags captures pos names before s).1, pos ≤ l.start ∧ l.start < l.stop) ∧
      ∀ f, (scan flags captures pos names before s).2 = some f → pos ≤ f.offset := by
  fun_induction scan flags captures pos names before s with
  | case1 => simp
  | case2 => simp
  | case3 =>
    rename_i pos names before b rest r hr later ih
    have := (fits_of_lexeme hr).positive
    refine ⟨?_, ?_⟩
    · intro l hl
      rcases List.mem_cons.mp hl with rfl | hl
      · simp only
        omega
      · have := ih.1 l hl
        omega
    · intro f hf
      have := ih.2 f hf
      omega

/-- **The lexemes of a source fall apart at every place its scan comes to.**  What is read later
depends on nothing that was read before but the names and the last token. -/
theorem ComesTo.lexemes_eq {pos : Nat} {names : List Bytes} {before : Before} {s : Bytes}
    (h : ComesTo flags source pos names before s) :
    ∃ done, (∀ l ∈ done, l.start < l.stop ∧ l.stop ≤ pos) ∧
      (lexemes flags source).1 = done ++ (scan flags (countCaptures source) pos names before s).1 ∧
      (lexemes flags source).2 = (scan flags (countCaptures source) pos names before s).2 := by
  induction h with
  | start => exact ⟨[], by simp, rfl, rfl⟩
  | next h read ih =>
    rename_i pos names before b rest r
    obtain ⟨done, stops, eq, fault⟩ := ih
    have := (fits_of_lexeme read).positive
    rw [scan, read] at eq fault
    refine ⟨done ++ [⟨pos, pos + r.width, r.nodes, r.token⟩], ?_, ?_, fault⟩
    · intro l hl
      rcases List.mem_append.mp hl with hl | hl
      · have := stops l hl
        omega
      · rw [List.mem_singleton.mp hl]
        simp only
        omega
    · rw [eq, List.append_assoc]
      rfl

theorem exists_comesTo_of_mem_scan {pos : Nat} {names : List Bytes} {before : Before} {s : Bytes}
    (h : ComesTo flags source pos names before s) {l : Lexeme}
    (hl : l ∈ (scan flags (countCaptures source) pos names before s).1) :
    ∃ names before b rest r, ComesTo flags source l.start names before (b :: rest) ∧
      lexeme flags (countCaptures source) names l.start before b rest = .ok r ∧
      l = ⟨l.start, l.start + r.width, r.nodes, r.token⟩ := by
  fun_induction scan flags (countCaptures source) pos names before s with
  | case1 => simp at hl
  | case2 => simp at hl
  | case3 =>
    rename_i pos names before b rest r hr later ih
    rcases List.mem_cons.mp hl with rfl | hl
    · exact ⟨names, before, b, rest, r, h, hr, rfl⟩
    · exact ih (h.next hr) hl

/-- **Every lexeme was read at a place the scan came to.** -/
theorem exists_comesTo_of_mem {l : Lexeme} (hl : l ∈ (lexemes flags source).1) :
    ∃ names before b rest r, ComesTo flags source l.start names before (b :: rest) ∧
      lexeme flags (countCaptures source) names l.start before b rest = .ok r ∧
      l = ⟨l.start, l.start + r.width, r.nodes, r.token⟩ :=
  exists_comesTo_of_mem_scan .start hl

/-- What is read at a place is one of the lexemes. -/
theorem ComesTo.mem_lexemes {pos : Nat} {names : List Bytes} {before : Before} {b : UInt8}
    {rest : Bytes} {r : Reading} (h : ComesTo flags source pos names before (b :: rest))
    (read : lexeme flags (countCaptures source) names pos before b rest = .ok r) :
    ⟨pos, pos + r.width, r.nodes, r.token⟩ ∈ (lexemes flags source).1 := by
  obtain ⟨done, -, eq, -⟩ := h.lexemes_eq
  rw [eq, scan, read]
  exact List.mem_append_right _ List.mem_cons_self

/-- No other lexeme starts at the place, and a fault is reported after what is read there. -/
theorem ComesTo.single {pos : Nat} {names : List Bytes} {before : Before} {b : UInt8}
    {rest : Bytes} {r : Reading} (h : ComesTo flags source pos names before (b :: rest))
    (read : lexeme flags (countCaptures source) names pos before b rest = .ok r) :
    (∀ l ∈ (lexemes flags source).1, l.start = pos → l.token = r.token) ∧
      ∀ f, (lexemes flags source).2 = some f → pos < f.offset := by
  obtain ⟨done, stops, eq, fault⟩ := h.lexemes_eq
  rw [scan, read] at eq fault
  have width := (fits_of_lexeme read).positive
  obtain ⟨starts, faults⟩ := @le_of_scan flags (countCaptures source) (pos + r.width)
    (namesAfter names r.token) (Before.of r.token) (rest.drop (r.width - 1))
  refine ⟨?_, ?_⟩
  · intro l hl start
    rw [eq] at hl
    rcases List.mem_append.mp hl with hl | hl
    · have := stops l hl
      omega
    rcases List.mem_cons.mp hl with rfl | hl
    · rfl
    · have := starts l hl
      omega
  · intro f hf
    have := faults f (fault.symm.trans hf)
    omega

/-- A place at which nothing can be read ends the scan. -/
theorem ComesTo.fault_eq {pos : Nat} {names : List Bytes} {before : Before} {b : UInt8}
    {rest : Bytes} {f : Fault} (h : ComesTo flags source pos names before (b :: rest))
    (read : lexeme flags (countCaptures source) names pos before b rest = .error f) :
    (lexemes flags source).2 = some ⟨pos + f.offset, f.cause⟩ := by
  obtain ⟨-, -, -, fault⟩ := h.lexemes_eq
  rw [fault, scan, read]

end Backtrack.Lexer
