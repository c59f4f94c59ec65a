/-
# A highlighted source is the source

What is written for a source with two spans highlighted is a row of stretches, each of them text
of the source between the codes of one style, or without codes where the text is plain or where
there are no colours.  This file says which stretches these are without saying how they are found
(`Shows`): their texts are the source, none is empty, neighbours differ in style, and the style of
each byte is the one that the two spans ask for.  The spans may overlap, be empty or reach beyond
the source.

That leaves nothing open.  Bytes with their styles are cut in one way only into stretches that
cannot be longer (`IsCut.eq_of_isCut`), so the stretches are the same with colours and without
(`text_eq_stretches`).

Which bytes a code is made of is up to the painter.  All that is asked of it is that it prints
the text it is given, between two codes of its choice, and without them if there are no colours
(`Painter.Wraps`).  The painter for terminals is one of those (`wraps_terminal`).

A source may hold codes of its own.  So it takes more than what is written to tell which codes to
leave out, and the stretches say which.  On a terminal, and where the source has no escape byte,
all codes that are found can be left out (`withoutCodes_text`).  The same is true of whole reports
(`Report.onlyAddsCodes_report`, `OnlyAddsCodes.withoutCodes_eq`).
-/
import Backtrack.Report.Text
import Mathlib.Data.List.SplitBy

namespace Backtrack

/-- The offsets in a span.  A span need not lie inside of a source, and may be empty. -/
instance : Membership Nat Span where
  mem s i := s.start ≤ (i : Int) ∧ (i : Int) < s.stop

/-! ## 1. What a painter has to do -/

/-- The codes around a text with some attributes, the one before it and the one behind it. -/
abbrev Codes := List Attribute → Bytes × Bytes

/-- **A painter prints the text it is given, wrapped in codes only where colours are enabled.** -/
structure Painter.Wraps (paint : Painter) (codes : Codes) : Prop where
  enabled : ∀ attributes text,
    paint true attributes text = (codes attributes).1 ++ text ++ (codes attributes).2
  disabled : ∀ attributes text, paint false attributes text = text

/-- The codes of a terminal. -/
def terminalCodes : Codes := fun attributes => (terminalOn attributes, terminalOff)

theorem Painter.wraps_terminal : Painter.terminal.Wraps terminalCodes where
  enabled _ _ := rfl
  disabled _ _ := rfl

namespace Highlight

variable {source : Bytes} {left right : Span} {paint : Painter} {codes : Codes}

/-! ## 2. What is shown where

The style of a byte follows from the two spans and from nothing else, so it is asked for byte by
byte.  That the stretches are as long as can be is said by their neighbours. -/

/-- Which style a byte has to be shown in, `none` if it has to be plain. -/
def Asks (left right : Span) (i : Nat) : Option Style → Prop
  | some .left => i ∈ left ∧ i ∉ right
  | some .right => i ∈ right ∧ i ∉ left
  | some .both => i ∈ left ∧ i ∈ right
  | none => i ∉ left ∧ i ∉ right
  | some _ => False

/-- A stretch of a source that is shown in one style, or plain. -/
structure Stretch where
  style? : Option Style
  text : Bytes
deriving Repr, DecidableEq

namespace Stretch

/-- The code before the text. -/
def opening (codes : Codes) (colored : Bool) (p : Stretch) : Bytes :=
  match p.style? with
  | some style => if colored then (codes style.attributes).1 else []
  | none => []

/-- The code behind the text. -/
def closing (codes : Codes) (colored : Bool) (p : Stretch) : Bytes :=
  match p.style? with
  | some style => if colored then (codes style.attributes).2 else []
  | none => []

/-- What is written for a stretch. -/
def written (codes : Codes) (colored : Bool) (p : Stretch) : Bytes :=
  p.opening codes colored ++ p.text ++ p.closing codes colored

/-- The bytes of a stretch with their style. -/
def cells (p : Stretch) : List (Option Style × UInt8) := p.text.map fun b => (p.style?, b)

theorem fst_of_mem_cells (p : Stretch) {c : Option Style × UInt8} (h : c ∈ p.cells) :
    c.1 = p.style? := by
  obtain ⟨b, -, rfl⟩ := List.mem_map.mp h
  rfl

theorem map_snd_cells (p : Stretch) : p.cells.map Prod.snd = p.text := by
  rw [cells, List.map_map]
  exact p.text.map_id

end Stretch

/-- The bytes of some stretches with their styles. -/
def shown (ps : List Stretch) : List (Option Style × UInt8) := ps.flatMap Stretch.cells

/-- The style that the byte at `i` is shown in. -/
def styleAt? (ps : List Stretch) (i : Nat) : Option Style := (shown ps)[i]?.bind Prod.fst

/-- **How a source with two spans highlighted is shown.** -/
structure Shows (source : Bytes) (left right : Span) (ps : List Stretch) : Prop where
  /-- No byte is left out, repeated or moved. -/
  joins : ps.flatMap Stretch.text = source
  /-- Each stretch goes on by a byte at least. -/
  advances : ∀ p ∈ ps, p.text ≠ []
  /-- No stretch could be longer. -/
  maximal : ps.IsChain fun p q => p.style? ≠ q.style?
  /-- Each byte is shown in the style that the spans ask for, and in no other one. -/
  asked : ∀ i < source.length, ∀ style?, styleAt? ps i = style? ↔ Asks left right i style?

/-! ## 3. Cutting bytes with styles into stretches

This section knows nothing of spans.  A list is cut where neighbours differ, and there is one way
to do that. -/

/-- The stretch that some bytes are, by the style of the first one. -/
def Stretch.ofCells (cs : List (Option Style × UInt8)) : Stretch :=
  ⟨cs.head?.bind Prod.fst, cs.map Prod.snd⟩

theorem Stretch.ofCells_cells (p : Stretch) (h : p.text ≠ []) : ofCells p.cells = p := by
  have style : p.cells.head?.bind Prod.fst = p.style? := by
    obtain ⟨b, text, split⟩ := List.exists_cons_of_ne_nil h
    rw [cells, split]
    rfl
  rw [ofCells, style, map_snd_cells]

/-- Some stretches are what `cells` is cut into where the style changes. -/
structure IsCut (cells : List (Option Style × UInt8)) (ps : List Stretch) : Prop where
  shown_eq : shown ps = cells
  advances : ∀ p ∈ ps, p.text ≠ []
  maximal : ps.IsChain fun p q => p.style? ≠ q.style?

namespace IsCut

variable {cells : List (Option Style × UInt8)} {ps qs : List Stretch}

theorem nil : IsCut [] [] := ⟨rfl, by simp, List.isChain_nil⟩

/-- One more byte of the style of the first stretch makes it longer. -/
theorem extend {style? : Option Style} {text : Bytes} (h : IsCut cells (⟨style?, text⟩ :: ps))
    (b : UInt8) : IsCut ((style?, b) :: cells) (⟨style?, b :: text⟩ :: ps) where
  shown_eq := by
    rw [← h.shown_eq]
    rfl
  advances p hp := by
    rcases List.mem_cons.mp hp with rfl | hp
    · exact List.cons_ne_nil b text
    · exact h.advances p (List.mem_cons_of_mem _ hp)
  maximal := by
    have chain := h.maximal
    rw [List.isChain_cons] at chain ⊢
    exact chain

/-- A byte of another style is a stretch by itself. -/
theorem start {style? : Option Style} (h : IsCut cells ps)
    (differs : ∀ p ∈ ps.head?, style? ≠ p.style?) (b : UInt8) :
    IsCut ((style?, b) :: cells) (⟨style?, [b]⟩ :: ps) where
  shown_eq := by
    rw [← h.shown_eq]
    rfl
  advances p hp := by
    rcases List.mem_cons.mp hp with rfl | hp
    · exact List.cons_ne_nil b []
    · exact h.advances p hp
  maximal := List.isChain_cons.mpr ⟨differs, h.maximal⟩

/-- The stretches are found by splitting where the style changes. -/
theorem splitBy_eq (h : IsCut cells ps) :
    cells.splitBy (fun c d => c.1 == d.1) = ps.map Stretch.cells := by
  rw [← h.shown_eq, shown, List.flatMap_def]
  apply List.splitBy_flatten
  · intro hmem
    obtain ⟨p, hp, empty⟩ := List.mem_map.mp hmem
    exact h.advances p hp (List.map_eq_nil_iff.mp empty)
  · -- in a stretch the style is the same
    intro cs hcs
    obtain ⟨p, -, rfl⟩ := List.mem_map.mp hcs
    refine (List.pairwise_of_forall_mem_list fun c hc d hd => ?_).isChain
    rw [p.fst_of_mem_cells hc, p.fst_of_mem_cells hd]
    exact beq_self_eq_true _
  · -- between two stretches it changes
    rw [List.isChain_map]
    refine h.maximal.imp_of_mem_imp fun p q hp hq differs => ?_
    have hp' : p.cells ≠ [] := mt List.map_eq_nil_iff.mp (h.advances p hp)
    have hq' : q.cells ≠ [] := mt List.map_eq_nil_iff.mp (h.advances q hq)
    refine ⟨hp', hq', ?_⟩
    rw [p.fst_of_mem_cells (List.getLast_mem hp'), q.fst_of_mem_cells (List.head_mem hq')]
    exact beq_eq_false_iff_ne.mpr differs

/-- What the bytes are cut into can be read off the bytes. -/
theorem map_ofCells_splitBy (h : IsCut cells ps) :
    (cells.splitBy fun c d => c.1 == d.1).map Stretch.ofCells = ps := by
  rw [h.splitBy_eq, List.map_map]
  refine (List.map_congr_left fun p hp => ?_).trans ps.map_id
  exact p.ofCells_cells (h.advances p hp)

/-- **Bytes with styles are cut in one way only.**  Where a cut is follows from the styles of two
neighbours. -/
theorem eq_of_isCut (h : IsCut cells ps) (h' : IsCut cells qs) : ps = qs :=
  h.map_ofCells_splitBy.symm.trans h'.map_ofCells_splitBy

end IsCut

/-! ## 4. The runs of a source

What is written is cut by marks, and different marks are shown in different styles, so it is cut
by styles. -/

/-- Different marks are shown in different styles. -/
theorem Mark.style?_inj {m m' : Mark} : m.style? = m'.style? ↔ m = m' := by
  obtain ⟨l, r⟩ := m
  obtain ⟨l', r'⟩ := m'
  revert l r l' r'
  decide

/-- A run as a stretch. -/
def Stretch.ofRun (run : Mark × Bytes) : Stretch := ⟨run.1.style?, run.2⟩

/-- What is shown of bytes with marks. -/
def styled (ms : List (Mark × UInt8)) : List (Option Style × UInt8) :=
  ms.map fun c => (c.1.style?, c.2)

/-- **The runs are cut where the style changes.**  The runs are cut where the mark changes, and
different marks have different styles. -/
theorem isCut_runs (ms : List (Mark × UInt8)) :
    IsCut (styled ms) ((runs ms).map Stretch.ofRun) := by
  induction ms with
  | nil => exact IsCut.nil
  | cons c rest ih =>
    obtain ⟨m, b⟩ := c
    rw [runs]
    -- of the runs of the rest, the first one is all that the byte can join
    cases found : runs rest with
    | nil =>
      rw [found] at ih
      exact ih.start (fun p hp => by simp at hp) b
    | cons run later =>
      obtain ⟨m', bs⟩ := run
      rw [found, List.map_cons] at ih
      dsimp only
      by_cases same : m = m'
      · rw [if_pos same]
        subst same
        exact ih.extend b
      · rw [if_neg same]
        refine ih.start (fun p hp => ?_) b
        obtain rfl : Stretch.ofRun (m', bs) = p := Option.mem_some_iff.mp hp
        exact mt Mark.style?_inj.mp same

/-! ## 5. The style of each byte

What is asked of each byte and what the marks say are compared at each offset, also for spans that
reach beyond the source. -/

theorem covers_iff {s : Span} {i : Nat} : covers s i = true ↔ i ∈ s := by
  simp [covers, Membership.mem]

theorem style?_markAt_iff {i : Nat} {style? : Option Style} :
    (markAt left right i).style? = style? ↔ Asks left right i style? := by
  rcases style? with _ | style
  · simp only [markAt, Asks, ← covers_iff]
    cases covers left i <;> cases covers right i <;> decide
  · cases style <;> simp only [markAt, Asks, ← covers_iff] <;>
      cases covers left i <;> cases covers right i <;> decide

theorem getElem?_marked (s : Bytes) (i j : Nat) :
    (marked left right i s)[j]? = s[j]?.map fun b => (markAt left right (i + j), b) := by
  induction s generalizing i j with
  | nil => rfl
  | cons b s ih =>
    cases j with
    | zero => rfl
    | succ j =>
      rw [marked, List.getElem?_cons_succ, List.getElem?_cons_succ, ih, Nat.succ_add_eq_add_succ]

theorem getElem?_styled_marked (i : Nat) :
    (styled (marked left right 0 source))[i]? =
      source[i]?.map fun b => ((markAt left right i).style?, b) := by
  rw [styled, List.getElem?_map, getElem?_marked, Option.map_map, Nat.zero_add]
  rfl

/-- Bytes with styles are those of a source if the bytes are, and each style is that of the mark. -/
theorem eq_styled_marked_iff {cells : List (Option Style × UInt8)} :
    cells = styled (marked left right 0 source) ↔ cells.map Prod.snd = source ∧
      ∀ i < source.length, cells[i]?.bind Prod.fst = (markAt left right i).style? := by
  constructor
  · rintro rfl
    refine ⟨List.ext_getElem? fun i => ?_, fun i hi => ?_⟩
    · rw [List.getElem?_map, getElem?_styled_marked, Option.map_map]
      exact Option.map_id'
    · rw [getElem?_styled_marked, List.getElem?_eq_getElem hi]
      rfl
  · rintro ⟨rfl, styles⟩
    refine List.ext_getElem? fun i => ?_
    rw [getElem?_styled_marked, List.getElem?_map]
    cases found : cells[i]? with
    | none => rfl
    | some c =>
      obtain ⟨hi, -⟩ := List.getElem?_eq_some_iff.mp found
      have style := styles i (by rwa [List.length_map])
      rw [found] at style
      exact congrArg some (Prod.ext style rfl)

theorem map_snd_shown (ps : List Stretch) :
    (shown ps).map Prod.snd = ps.flatMap Stretch.text := by
  rw [shown, List.map_flatMap]
  exact congrArg ps.flatMap (funext Stretch.map_snd_cells)

/-- **A source is shown as asked for if its bytes, each in the style of its mark, are cut where
the style changes.** -/
theorem shows_iff_isCut {ps : List Stretch} :
    Shows source left right ps ↔ IsCut (styled (marked left right 0 source)) ps := by
  constructor
  · intro h
    refine ⟨eq_styled_marked_iff.mpr ⟨?_, fun i hi => ?_⟩, h.advances, h.maximal⟩
    · rw [map_snd_shown, h.joins]
    · exact (h.asked i hi _).mpr (style?_markAt_iff.mp rfl)
  · intro h
    obtain ⟨bytes, styles⟩ := eq_styled_marked_iff.mp h.shown_eq
    refine ⟨?_, h.advances, h.maximal, fun i hi style? => ?_⟩
    · rw [← map_snd_shown, bytes]
    · rw [styleAt?, styles i hi, style?_markAt_iff]

/-! ## 6. What is written -/

/-- The stretches that a source with two spans highlighted is written in. -/
def stretches (source : Bytes) (left right : Span) : List Stretch :=
  (runs (marked left right 0 source)).map Stretch.ofRun

theorem shows_stretches (source : Bytes) (left right : Span) :
    Shows source left right (stretches source left right) :=
  shows_iff_isCut.mpr (isCut_runs _)

theorem Shows.eq_stretches {ps : List Stretch} (h : Shows source left right ps) :
    ps = stretches source left right :=
  (shows_iff_isCut.mp h).eq_of_isCut (isCut_runs _)

/-- Without colours there are no codes. -/
theorem Stretch.written_false : written codes false = text := by
  funext p
  obtain ⟨_ | style, text⟩ := p <;> simp [written, opening, closing]

/-- What is printed in a style is what is written for a stretch in that style. -/
theorem written_some (wraps : paint.Wraps codes) (colored : Bool) (style : Style) (text : Bytes) :
    Stretch.written codes colored ⟨some style, text⟩ = paint.print colored style text := by
  cases colored with
  | false => rw [Stretch.written_false, Painter.print, wraps.disabled]
  | true =>
    rw [Painter.print, wraps.enabled]
    rfl

theorem written_ofRun (wraps : paint.Wraps codes) (colored : Bool) (run : Mark × Bytes) :
    (Stretch.ofRun run).written codes colored = paintRun paint colored run := by
  rw [Stretch.ofRun, paintRun]
  cases run.1.style? with
  | none => exact List.append_nil run.2
  | some style => exact written_some wraps colored style run.2

theorem text_eq_flatMap (wraps : paint.Wraps codes) (colored : Bool) (source : Bytes)
    (left right : Span) :
    text paint colored source left right =
      (stretches source left right).flatMap (Stretch.written codes colored) := by
  rw [text, stretches, List.flatMap_map]
  simp only [written_ofRun wraps]

theorem text_false (wraps : paint.Wraps codes) (source : Bytes) (left right : Span) :
    text paint false source left right = source := by
  rw [text_eq_flatMap wraps, Stretch.written_false]
  exact (shows_stretches source left right).joins

/-- **Highlighting keeps the source.**  There is one way to show the source as the spans ask for,
and it is what is written, with colours and without; without colours it is the source. -/
theorem text_eq_stretches (wraps : paint.Wraps codes) (source : Bytes) (left right : Span) :
    ∃ ps, (∀ qs, Shows source left right qs ↔ qs = ps) ∧
      (∀ colored, text paint colored source left right =
        ps.flatMap (Stretch.written codes colored)) ∧
      text paint false source left right = source := by
  refine ⟨stretches source left right, fun qs => ⟨Shows.eq_stretches, ?_⟩, fun colored => ?_, ?_⟩
  · rintro rfl
    exact shows_stretches source left right
  · exact text_eq_flatMap wraps colored source left right
  · exact text_false wraps source left right

/-- On a terminal: the left span begins before the source, the right one ends behind it, and they
have one byte in common. -/
theorem text_eq_stretches_on_terminal :
    ∃ ps, (∀ qs, Shows (Bytes.ofString "abcd") ⟨-1, 3⟩ ⟨2, 9⟩ qs ↔ qs = ps) ∧
      ps.map (·.style?) = [some .left, some .both, some .right] ∧
      ps.flatMap (Stretch.written terminalCodes true) =
        Bytes.ofString "\x1b[31mab\x1b[0m\x1b[35mc\x1b[0m\x1b[36md\x1b[0m" ∧
      text .terminal false (Bytes.ofString "abcd") ⟨-1, 3⟩ ⟨2, 9⟩ = Bytes.ofString "abcd" := by
  obtain ⟨ps, shows, written, plain⟩ :=
    text_eq_stretches Painter.wraps_terminal (Bytes.ofString "abcd") ⟨-1, 3⟩ ⟨2, 9⟩
  have found : stretches (Bytes.ofString "abcd") ⟨-1, 3⟩ ⟨2, 9⟩ = ps :=
    (shows _).mp (shows_stretches _ _ _)
  refine ⟨ps, shows, ?_, ?_, plain⟩
  · rw [← found]
    decide
  · rw [← written true]
    decide

/-! ## 7. Colours only add codes

A report is put together from plain text and from text in colours.  So it is enough to say it of
each part, and that it is kept when parts are put one behind the other. -/

/-- What is written in colours is what is written without, with codes around stretches of it. -/
def OnlyAddsCodes (codes : Codes) (write : Bool → Bytes) : Prop :=
  ∃ ps, ∀ colored, write colored = List.flatMap (Stretch.written codes colored) ps

namespace OnlyAddsCodes

variable {write write' : Bool → Bytes}

theorem plain (bs : Bytes) : OnlyAddsCodes codes fun _ => bs :=
  ⟨[⟨none, bs⟩], fun colored => by simp [Stretch.written, Stretch.opening, Stretch.closing]⟩

theorem print (wraps : paint.Wraps codes) (style : Style) (bs : Bytes) :
    OnlyAddsCodes codes fun colored => paint.print colored style bs :=
  ⟨[⟨some style, bs⟩], fun colored => by simp [written_some wraps]⟩

theorem append (h : OnlyAddsCodes codes write) (h' : OnlyAddsCodes codes write') :
    OnlyAddsCodes codes fun colored => write colored ++ write' colored := by
  obtain ⟨ps, hps⟩ := h
  obtain ⟨qs, hqs⟩ := h'
  refine ⟨ps ++ qs, fun colored => ?_⟩
  rw [List.flatMap_append, ← hps, ← hqs]

theorem ite {c : Prop} [Decidable c] (h : OnlyAddsCodes codes write)
    (h' : OnlyAddsCodes codes write') :
    OnlyAddsCodes codes fun colored => if c then write colored else write' colored := by
  by_cases hc : c
  · simpa only [if_pos hc] using h
  · simpa only [if_neg hc] using h'

theorem flatMap {α : Type} {write : Bool → α → Bytes}
    (h : ∀ a, OnlyAddsCodes codes fun colored => write colored a) (as : List α) :
    OnlyAddsCodes codes fun colored => as.flatMap (write colored) := by
  induction as with
  | nil => exact plain []
  | cons a as ih => exact (h a).append ih

end OnlyAddsCodes

theorem onlyAddsCodes_text (wraps : paint.Wraps codes) (source : Bytes) (left right : Span) :
    OnlyAddsCodes codes fun colored => text paint colored source left right :=
  ⟨stretches source left right, fun colored => text_eq_flatMap wraps colored source left right⟩

end Highlight

namespace Report

open Highlight

variable {paint : Painter} {codes : Codes}

theorem onlyAddsCodes_entryText (wraps : paint.Wraps codes) (checked : Bytes) (e : Entry) :
    OnlyAddsCodes codes fun colored => entryText paint colored checked e := by
  have source := onlyAddsCodes_text wraps checked e.left.span e.right.span
  exact .append (.append (.plain _) source) (.plain _)

theorem onlyAddsCodes_trailsText (wraps : paint.Wraps codes) (checked : Bytes) (ts : List Trail)
    (i : Nat) : OnlyAddsCodes codes fun colored => trailsText paint colored checked i ts := by
  induction ts generalizing i with
  | nil => exact .plain []
  | cons t ts ih =>
    have entries := OnlyAddsCodes.flatMap (onlyAddsCodes_entryText wraps checked) t.entries
    exact .append (.append (.plain _) entries) (ih (i + 1))

/-- **In a report colours only add codes.**  It is put together from its parts, each of which only
adds codes. -/
theorem onlyAddsCodes_report (wraps : paint.Wraps codes) (r : Report) :
    OnlyAddsCodes codes (r.text paint) := by
  unfold text
  cases r.error with
  | some e =>
    exact .append (.append (.append (.append (.plain _) (.print wraps _ _)) (.plain _)) (.plain _))
      (.plain _)
  | none =>
    have trails := onlyAddsCodes_trailsText wraps r.checked (r.trails.take maxTextTrails) 1
    refine .append (.append (.append (.append (.append (.plain _) ?verdict) (.plain _)) ?revised)
      trails) ?others
    case verdict => exact .ite (.print wraps _ _) (.print wraps _ _)
    case revised => exact .ite (.print wraps _ _) (.plain [])
    case others => exact .ite (.print wraps _ _) (.plain [])

end Report

namespace Highlight

/-! ## 8. Leaving out the codes of a terminal -/

/-- The byte that codes start with. -/
def escape : UInt8 := 0x1B

/-- A byte string without the codes in it: nothing is kept from an escape byte to the `m` behind
it.  `inCode` says whether the string starts inside of a code. -/
def withoutCodes (inCode : Bool) : Bytes → Bytes
  | [] => []
  | b :: rest =>
    if inCode then withoutCodes (b != Ascii.byte 'm') rest
    else if b = escape then withoutCodes true rest
    else b :: withoutCodes false rest

theorem withoutCodes_append {bs : Bytes} (clean : escape ∉ bs) (rest : Bytes) :
    withoutCodes false (bs ++ rest) = bs ++ withoutCodes false rest := by
  induction bs with
  | nil => rfl
  | cons b bs ih =>
    obtain ⟨other, clean⟩ := List.ne_and_not_mem_of_not_mem_cons clean
    rw [List.cons_append, withoutCodes, if_neg Bool.false_ne_true, if_neg other.symm, ih clean,
      List.cons_append]

theorem withoutCodes_opening (colored : Bool) (p : Stretch) (rest : Bytes) :
    withoutCodes false (p.opening terminalCodes colored ++ rest) = withoutCodes false rest := by
  obtain ⟨_ | style, text⟩ := p
  · rfl
  · cases colored
    · rfl
    · cases style <;> rfl

theorem withoutCodes_closing (colored : Bool) (p : Stretch) (rest : Bytes) :
    withoutCodes false (p.closing terminalCodes colored ++ rest) = withoutCodes false rest := by
  obtain ⟨_ | style, text⟩ := p <;> cases colored <;> rfl

theorem withoutCodes_flatMap_written (colored : Bool) {ps : List Stretch}
    (clean : escape ∉ ps.flatMap Stretch.text) :
    withoutCodes false (ps.flatMap (Stretch.written terminalCodes colored)) =
      ps.flatMap Stretch.text := by
  induction ps with
  | nil => rfl
  | cons p ps ih =>
    rw [List.flatMap_cons, List.mem_append, not_or] at clean
    rw [List.flatMap_cons, List.flatMap_cons, Stretch.written, List.append_assoc,
      List.append_assoc, withoutCodes_opening, withoutCodes_append clean.1, withoutCodes_closing,
      ih clean.2]

/-- **The codes can be told from a text that has none of its own.**  Codes begin with a byte that
the text does not have. -/
theorem OnlyAddsCodes.withoutCodes_eq {write : Bool → Bytes}
    (h : OnlyAddsCodes terminalCodes write) (clean : escape ∉ write false) (colored : Bool) :
    withoutCodes false (write colored) = write false := by
  obtain ⟨ps, hps⟩ := h
  have plain : write false = ps.flatMap Stretch.text := by rw [hps, Stretch.written_false]
  rw [plain] at clean ⊢
  rw [hps, withoutCodes_flatMap_written colored clean]

/-- What is left of a highlighted source is the source. -/
theorem withoutCodes_text (clean : escape ∉ source) (colored : Bool) (left right : Span) :
    withoutCodes false (text .terminal colored source left right) = source := by
  have plain := text_false Painter.wraps_terminal source left right
  rw [← plain] at clean
  rw [(onlyAddsCodes_text Painter.wraps_terminal source left right).withoutCodes_eq clean, plain]

end Highlight

end Backtrack
