/-
# What is known of atomic groups along a path

A side meets one stack of frames after another and keeps the atomic groups it has been in.
Everything a search asks of that is about the stacks themselves: a group is in the history if it
was open in one of them, present if it is open in the last one, left behind if it was open before
and is not now (`Atomics.lookup_standings_eq_present`, `Atomics.lookup_standings_eq_wasPresent`).
Two sides are in step unless one of them is inside of a group that the other one has left, and
nothing depends on which of them is asked first.

Histories are shared.  Where a path splits both halves go on with the same history, so one that
has been handed out must stay as it is.  `Histories` keeps them in numbered cells, as a memory
does: a side that comes to no new group goes on with its own cell, at the first new group a copy is
made, and from then on the copy itself is extended.  Whether the copy has been made is told from
the number of groups alone.  `Histories.foldl_note` says what all of that amounts to, and
`Histories.observe_histories` that each side still has its own history after any number of
observations by any of the sides.
-/
import Backtrack.Proofs.Search.Admissible
import Mathlib.Data.List.Induction
import Mathlib.Tactic.Tauto

namespace Backtrack

/-! ## 1. Histories

A history only grows, by atomic groups that are open, lookarounds aside.  So it is known from the
stacks, in whatever order they were met. -/

/-- The group with this number is open, and not as a lookaround. -/
def Frames.HasOpen (fs : Frames) (g : Nat) : Prop :=
  ∃ k, .group k ∈ fs ∧ k.isLookaround = false ∧ k.site.id = g

theorem Frames.mem_openGroups {fs : Frames} {g : Nat} :
    g ∈ Frames.openGroups fs ↔ Frames.HasOpen fs g := by
  rw [openGroups, List.mem_filterMap]
  constructor
  · rintro ⟨f, hf, hg⟩
    cases f with
    | group k =>
      cases hk : k.isLookaround with
      | true => simp [hk] at hg
      | false => exact ⟨k, hf, hk, by simpa [hk] using hg⟩
    | iteration i => simp at hg
  · rintro ⟨k, hf, hk, rfl⟩
    exact ⟨.group k, hf, by simp [hk]⟩

namespace Atomics

variable {atomic : List Nat}

/-- The history of a side that has met some stacks of frames, one after another. -/
def along (atomic : List Nat) (fss : List Frames) : Atomics :=
  fss.foldl (fun a fs => a.enter atomic (Frames.openGroups fs)) none

theorem along_concat (atomic : List Nat) (fss : List Frames) (fs : Frames) :
    along atomic (fss ++ [fs]) =
      (along atomic fss).enter atomic (Frames.openGroups fs) := by
  simp [along]

/-- **The history is what was open in one of the stacks.**  By induction on the stacks; nothing is
ever taken out of a history. -/
theorem mem_along {fss : List Frames} {g : Nat} :
    g ∈ (along atomic fss).entered ↔ g ∈ atomic ∧ ∃ fs ∈ fss, Frames.HasOpen fs g := by
  induction fss using List.reverseRecOn with
  | nil => simp [along, none]
  | append_singleton fss fs ih =>
    rw [along_concat, mem_enter, ih, Frames.mem_openGroups]
    constructor
    · rintro (⟨hg, s, hs, ho⟩ | ⟨ho, hg⟩)
      · exact ⟨hg, s, List.mem_append_left _ hs, ho⟩
      · exact ⟨hg, fs, List.mem_append_right _ List.mem_cons_self, ho⟩
    · rintro ⟨hg, s, hs, ho⟩
      rcases List.mem_append.mp hs with hs | hs
      · exact .inl ⟨hg, s, hs, ho⟩
      · exact .inr ⟨List.mem_singleton.mp hs ▸ ho, hg⟩

/-- How a side that has met some stacks stands to the atomic groups in one more. -/
def standings (atomic : List Nat) (before : List Frames) (fs : Frames) : Presences :=
  (along atomic before).presences atomic (Frames.openGroups fs)

/-- A group is present if it is open now. -/
theorem lookup_standings_eq_present {before : List Frames} {fs : Frames} {g : Nat} :
    (standings atomic before fs).lookup g = some .present ↔
      g ∈ atomic ∧ Frames.HasOpen fs g := by
  rw [standings, lookup_presences_eq_present fun g hg => (mem_along.mp hg).1,
    Frames.mem_openGroups, and_comm]

/-- A group was present if it was open once and is not open now. -/
theorem lookup_standings_eq_wasPresent {before : List Frames} {fs : Frames} {g : Nat} :
    (standings atomic before fs).lookup g = some .wasPresent ↔
      g ∈ (along atomic (before ++ [fs])).entered ∧ ¬ Frames.HasOpen fs g := by
  rw [standings, lookup_presences_eq_wasPresent fun g hg => (mem_along.mp hg).1, along_concat,
    mem_enter, Frames.mem_openGroups]
  tauto

/-- A side stands to each group in one way only. -/
theorem mem_standings {before : List Frames} {fs : Frames} {g : Nat} {p : Presence} :
    (g, p) ∈ standings atomic before fs ↔ (standings atomic before fs).lookup g = some p :=
  mem_presences_iff_lookup fun _ hg => (mem_along.mp hg).1

end Atomics

/-! ## 2. Two sides

What two sides know is merged group by group.  A conflict is symmetric, and so is merging, so the
order of the sides does not matter. -/

theorem Presence.conflicts_comm (p q : Presence) : p.conflicts q = q.conflicts p := by
  cases p <;> cases q <;> rfl

namespace Presences

/-- Both say the same of every group. -/
def Agree (l r : Presences) : Prop := ∀ g, l.lookup g = r.lookup g

/-- What two sides say of one group, taken together. -/
def join : Option Presence → Option Presence → Option Presence
  | some p, q => some (p.merge q)
  | none, q => q

theorem join_comm (p q : Option Presence) : join p q = join q p := by
  rcases p with _ | p <;> rcases q with _ | q
  · rfl
  · cases q <;> rfl
  · cases p <;> rfl
  · cases p <;> cases q <;> rfl

/-- **What the merged presences say of a group.** -/
theorem lookup_sync {l r m : Presences} (h : l.sync r = some m) (g : Nat) :
    m.lookup g = join (l.lookup g) (r.lookup g) := by
  have onLeft : ∀ es : Presences,
      (es.map fun e => (e.1, e.2.merge (r.lookup e.1))).lookup g =
        (es.lookup g).map fun p => p.merge (r.lookup g) := by
    intro es
    induction es with
    | nil => rfl
    | cons e es ih =>
      rw [List.map_cons, List.lookup_cons, List.lookup_cons, ih]
      by_cases he : g = e.1
      · simp [he]
      · have : (g == e.1) = false := by simpa using he
        simp [this]
  have onRight : l.lookup g = none → ∀ es : Presences,
      (es.filter fun e => (l.lookup e.1).isNone).lookup g = es.lookup g := by
    intro hl es
    induction es with
    | nil => rfl
    | cons e es ih =>
      obtain ⟨k, p⟩ := e
      by_cases hk : g = k
      · simp [← hk, hl]
      · have other : (g == k) = false := by simpa using hk
        rw [List.filter_cons, List.lookup_cons, other, ← ih]
        split <;> simp [List.lookup_cons, other]
  unfold sync at h
  split at h
  · simp at h
  obtain rfl := Option.some.inj h
  rw [List.lookup_append, onLeft]
  cases hl : l.lookup g with
  | none => simp [join, onRight hl]
  | some p => simp [join]

end Presences

namespace Atomics

section Pairs

variable {atomic : List Nat} {ls rs : List Frames} {l r : Frames}

/-- **Two sides are in step unless one of them is inside of a group that the other one has
left.**  How each side stands to a group is known from its stacks, and two standings conflict in
just this way. -/
theorem isSome_sync_standings_iff :
    ((standings atomic ls l).sync (standings atomic rs r)).isSome = true ↔
      ∀ g p q, (standings atomic ls l).lookup g = some p →
        (standings atomic rs r).lookup g = some q → p.conflicts q = false := by
  rw [Presences.isSome_sync_iff]
  constructor
  · exact fun all g p q hp hq => all (g, p) (mem_standings.mpr hp) q hq
  · exact fun all e he q hq => all e.1 e.2 q (mem_standings.mp he) hq

/-- It does not matter which of the sides is asked first. -/
theorem isSome_sync_standings_comm :
    ((standings atomic ls l).sync (standings atomic rs r)).isSome =
      ((standings atomic rs r).sync (standings atomic ls l)).isSome := by
  rw [Bool.eq_iff_iff, isSome_sync_standings_iff, isSome_sync_standings_iff]
  constructor <;>
    exact fun all g p q hp hq => (Presence.conflicts_comm p q).trans (all g q p hq hp)

/-- Nor does it for what the sides know together. -/
theorem sync_standings_comm :
    Option.Rel Presences.Agree ((standings atomic ls l).sync (standings atomic rs r))
      ((standings atomic rs r).sync (standings atomic ls l)) := by
  have success : ((standings atomic ls l).sync (standings atomic rs r)).isSome =
      ((standings atomic rs r).sync (standings atomic ls l)).isSome :=
    isSome_sync_standings_comm
  cases h : (standings atomic ls l).sync (standings atomic rs r) with
  | none =>
    cases h' : (standings atomic rs r).sync (standings atomic ls l) with
    | none => exact .none
    | some m' => simp [h, h'] at success
  | some m =>
    cases h' : (standings atomic rs r).sync (standings atomic ls l) with
    | none => simp [h, h'] at success
    | some m' =>
      refine .some fun g => ?_
      rw [Presences.lookup_sync h, Presences.lookup_sync h', Presences.join_comm]

/-- A side is always in step with one that has met the same stacks. -/
theorem isSome_sync_standings_self :
    ((standings atomic ls l).sync (standings atomic ls l)).isSome = true := by
  rw [isSome_sync_standings_iff]
  intro g p q hp hq
  obtain rfl := Option.some.inj (hp.symm.trans hq)
  cases p <;> rfl

end Pairs

end Atomics

/-! ## 3. Histories in memory

A cell that another side has is never written to.  The one that is extended was made in the same
observation, and nobody else has it yet; that is why the number of groups is enough to tell
whether a copy has been made. -/

/-- The histories of all sides, in numbered cells; sides that have been in the same groups share a
cell.  A side is known by its place in `sides`. -/
structure Histories where
  cells : List (List Nat)
  sides : List Nat
deriving Repr, DecidableEq

namespace Histories

/-- One side, which has not been anywhere. -/
def start : Histories := ⟨[[]], [0]⟩

/-- What a cell holds. -/
def holds (cells : List (List Nat)) (i : Nat) : List Nat := cells.getD i []

/-- Adds an open group to the history in cell `now` of a side that began with cell `base`.  The
two hold the same number of groups exactly as long as nothing has been copied. -/
def note (base : Nat) : List (List Nat) × Nat → Nat → List (List Nat) × Nat
  | (cells, now), g =>
    if g ∈ holds cells now then (cells, now)
    else if (holds cells now).length = (holds cells base).length then
      (cells ++ [holds cells base ++ [g]], cells.length)
    else (cells.set now (holds cells now ++ [g]), now)

/-- The cells once the side with cell `base` has met a stack of frames, and the cell it has
then. -/
def meet (atomic : List Nat) (cells : List (List Nat)) (base : Nat) (fs : Frames) :
    List (List Nat) × Nat :=
  ((Frames.openGroups fs).filter atomic.contains).foldl (note base) (cells, base)

/-- One of the sides meets a stack of frames and goes on as a side of its own. -/
def observe (atomic : List Nat) (h : Histories) (o : Nat × Frames) : Histories :=
  let met := meet atomic h.cells (h.sides.getD o.1 0) o.2
  ⟨met.1, h.sides ++ [met.2]⟩

/-- The histories of the sides, in order. -/
def histories (h : Histories) : List (List Nat) := h.sides.map (holds h.cells)

/-- The stacks each side has met once the sides have made some observations. -/
def pasts (os : List (Nat × Frames)) : List (List Frames) :=
  os.foldl (fun ps o => ps ++ [ps.getD o.1 [] ++ [o.2]]) [[]]

theorem pasts_concat (os : List (Nat × Frames)) (o : Nat × Frames) :
    pasts (os ++ [o]) = pasts os ++ [(pasts os).getD o.1 [] ++ [o.2]] := by
  rw [pasts, List.foldl_append, List.foldl_cons, List.foldl_nil, ← pasts]

variable {cells : List (List Nat)} {base : Nat}

/-- The groups that are new to a history. -/
def unmet (seen gs : List Nat) : List Nat := gs.eraseDups.filter fun g => !seen.contains g

theorem unmet_concat (seen gs : List Nat) (g : Nat) :
    unmet seen (gs ++ [g]) =
      if g ∈ seen ++ unmet seen gs then unmet seen gs else unmet seen gs ++ [g] := by
  have mem : g ∈ unmet seen gs ↔ g ∈ gs ∧ g ∉ seen := by
    simp [unmet, List.mem_filter, List.mem_eraseDups]
  simp only [List.mem_append, mem]
  rw [unmet, List.eraseDups_append, List.filter_append, ← unmet]
  by_cases hs : g ∈ seen
  · have none : ([g].removeAll gs).eraseDups.filter (fun g => !seen.contains g) = [] := by
      rw [List.filter_eq_nil_iff]
      intro k hk
      obtain rfl := List.mem_singleton.mp (List.mem_filter.mp (List.mem_eraseDups.mp hk)).1
      simp [hs]
    rw [none, List.append_nil, if_pos (.inl hs)]
  · by_cases hg : g ∈ gs <;> simp [hs, hg, List.removeAll, List.eraseDups_cons]

/-- **What noting some groups one after another amounts to**: nothing, if none of them is new, and
else one more cell, with the history of the side and what is new. -/
theorem foldl_note (hb : base < cells.length) (gs : List Nat) :
    gs.foldl (note base) (cells, base) =
      if unmet (holds cells base) gs = [] then (cells, base)
      else (cells ++ [holds cells base ++ unmet (holds cells base) gs], cells.length) := by
  have older : ∀ x, holds (cells ++ [x]) base = holds cells base := fun x => by
    simp [holds, List.getElem?_append_left hb]
  have newest : ∀ x, holds (cells ++ [x]) cells.length = x := fun x => by simp [holds]
  induction gs using List.reverseRecOn with
  | nil => simp [unmet]
  | append_singleton gs g ih =>
    rw [List.foldl_append, ih, unmet_concat, List.foldl_cons, List.foldl_nil]
    by_cases hn : unmet (holds cells base) gs = []
    · by_cases hg : g ∈ holds cells base <;> simp [hn, note, hg]
    · have longer : (holds cells base ++ unmet (holds cells base) gs).length ≠
          (holds cells base).length := by
        have := List.length_pos_iff.mpr hn
        rw [List.length_append]
        omega
      rw [if_neg hn, note, newest, older, if_neg longer]
      by_cases hg : g ∈ holds cells base ++ unmet (holds cells base) gs
      · rw [if_pos hg, if_pos hg, if_neg hn]
      · simp [hg]

/-- **An observation leaves all cells as they are, and the side has its new history.**  Cells are
only added, or the one that was just added is extended. -/
theorem meet_spec (hb : base < cells.length) (atomic : List Nat) (fs : Frames) :
    cells <+: (meet atomic cells base fs).1 ∧
      (meet atomic cells base fs).2 < (meet atomic cells base fs).1.length ∧
      holds (meet atomic cells base fs).1 (meet atomic cells base fs).2 =
        (Atomics.enter ⟨holds cells base⟩ atomic (Frames.openGroups fs)).entered := by
  have entered : (Atomics.enter ⟨holds cells base⟩ atomic (Frames.openGroups fs)).entered =
      holds cells base ++
        unmet (holds cells base) ((Frames.openGroups fs).filter atomic.contains) := rfl
  rw [entered, meet, foldl_note hb]
  split
  · rename_i hn
    rw [hn, List.append_nil]
    exact ⟨List.prefix_rfl, hb, rfl⟩
  · exact ⟨List.prefix_append .., by simp, by simp [holds]⟩

theorem holds_of_prefix {cells' : List (List Nat)} (h : cells <+: cells') {i : Nat}
    (hi : i < cells.length) : holds cells' i = holds cells i := by
  obtain ⟨more, rfl⟩ := h
  simp [holds, List.getElem?_append_left hi]

/-- **Each side has the history of the stacks it has met itself**, whichever of the sides have
observed something since.  A side that does not exist is the first one. -/
theorem observe_histories (atomic : List Nat) (os : List (Nat × Frames)) :
    (os.foldl (observe atomic) start).histories =
      (pasts os).map fun fss => (Atomics.along atomic fss).entered := by
  suffices [[]] <+: (os.foldl (observe atomic) start).cells ∧
      (∀ i ∈ (os.foldl (observe atomic) start).sides,
        i < (os.foldl (observe atomic) start).cells.length) ∧
      (os.foldl (observe atomic) start).histories =
        (pasts os).map fun fss => (Atomics.along atomic fss).entered from this.2.2
  induction os using List.reverseRecOn with
  | nil => exact ⟨List.prefix_rfl, by simp [start], rfl⟩
  | append_singleton os o ih =>
    rw [pasts_concat, List.foldl_append, List.foldl_cons, List.foldl_nil]
    generalize os.foldl (observe atomic) start = h at ih
    obtain ⟨first, bounded, eq⟩ := ih
    have zero : 0 < h.cells.length := Nat.lt_of_lt_of_le Nat.zero_lt_one first.length_le
    have inside : h.sides.getD o.1 0 < h.cells.length := by
      rw [List.getD_eq_getElem?_getD]
      cases hs : h.sides[o.1]? with
      | none => exact zero
      | some i => exact bounded i (List.mem_of_getElem? hs)
    have own : holds h.cells (h.sides.getD o.1 0) =
        (Atomics.along atomic ((pasts os).getD o.1 [])).entered := by
      have here := congrArg (·[o.1]?) eq
      simp only [histories, List.getElem?_map] at here
      rw [List.getD_eq_getElem?_getD, List.getD_eq_getElem?_getD]
      cases hs : h.sides[o.1]? <;> cases hp : (pasts os)[o.1]? <;> simp [hs, hp] at here ⊢
      · exact holds_of_prefix first Nat.zero_lt_one
      · exact here
    obtain ⟨kept, within, entered⟩ := meet_spec inside atomic o.2
    refine ⟨first.trans kept, ?_, ?_⟩
    · rw [observe, List.forall_mem_append]
      exact ⟨fun i hi => Nat.lt_of_lt_of_le (bounded i hi) kept.length_le,
        List.forall_mem_singleton.mpr within⟩
    · rw [observe, histories, List.map_append, List.map_append, ← eq, histories]
      congr 1
      · exact List.map_congr_left fun i hi => holds_of_prefix kept (bounded i hi)
      · rw [List.map_singleton, List.map_singleton, entered, own, Atomics.along_concat]

/-- **Histories that have been handed out stay as they are.** -/
theorem histories_prefix (atomic : List Nat) (os : List (Nat × Frames)) (o : Nat × Frames) :
    (os.foldl (observe atomic) start).histories <+:
      ((os ++ [o]).foldl (observe atomic) start).histories := by
  rw [observe_histories, observe_histories, pasts_concat, List.map_append]
  exact List.prefix_append ..

end Histories

/-! ## 4. All of it -/

/-- **Atomic groups are tracked exactly**, whichever groups are atomic and whatever the sides
meet.

* A side's history is what was open in one of the stacks it has met, a group is present if it is
  open now, and was present if it is in the history and not open now.
* Each side has the history of its own stacks, and an observation changes none that was there
  before, even though sides share what they keep.
* Two sides can be brought together unless one is inside of a group that the other one has left;
  it does not matter which of them comes first, and sides that have met the same stacks always
  can. -/
theorem Atomics.tracking_exact (atomic : List Nat) :
    (∀ fss g, g ∈ (along atomic fss).entered ↔
      g ∈ atomic ∧ ∃ fs ∈ fss, Frames.HasOpen fs g) ∧
    (∀ before fs g,
      ((standings atomic before fs).lookup g = some .present ↔
        g ∈ atomic ∧ Frames.HasOpen fs g) ∧
      ((standings atomic before fs).lookup g = some .wasPresent ↔
        g ∈ (along atomic (before ++ [fs])).entered ∧ ¬ Frames.HasOpen fs g)) ∧
    (∀ os o,
      (os.foldl (Histories.observe atomic) Histories.start).histories =
        (Histories.pasts os).map (fun fss => (along atomic fss).entered) ∧
      (os.foldl (Histories.observe atomic) Histories.start).histories <+:
        ((os ++ [o]).foldl (Histories.observe atomic) Histories.start).histories) ∧
    (∀ ls l rs r,
      (((standings atomic ls l).sync (standings atomic rs r)).isSome = true ↔
        ¬ ∃ g,
          (standings atomic ls l).lookup g = some .present ∧
            (standings atomic rs r).lookup g = some .wasPresent ∨
          (standings atomic ls l).lookup g = some .wasPresent ∧
            (standings atomic rs r).lookup g = some .present) ∧
      Option.Rel Presences.Agree ((standings atomic ls l).sync (standings atomic rs r))
        ((standings atomic rs r).sync (standings atomic ls l))) ∧
    ∀ ls l, ((standings atomic ls l).sync (standings atomic ls l)).isSome = true := by
  refine ⟨fun _ _ => mem_along,
    fun _ _ _ => ⟨lookup_standings_eq_present, lookup_standings_eq_wasPresent⟩,
    fun os o => ⟨Histories.observe_histories atomic os, Histories.histories_prefix atomic os o⟩,
    fun ls l rs r => ⟨?_, sync_standings_comm⟩, fun _ _ => isSome_sync_standings_self⟩
  rw [isSome_sync_standings_iff, not_exists]
  refine forall_congr' fun g => ?_
  cases (standings atomic ls l).lookup g with
  | none => simp
  | some p =>
    cases (standings atomic rs r).lookup g with
    | none => simp
    | some q => cases p <;> cases q <;> simp [Presence.conflicts]

end Backtrack
