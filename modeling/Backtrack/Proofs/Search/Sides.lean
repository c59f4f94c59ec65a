/-
# Sides over one tree

A side refers to nodes, quantifiers and references by what they are, and to be the same as another
side it is compared by their numbers only.  In one tree that makes no difference: a number belongs
to one node, and whether an iteration is optional follows from its number and the quantifier.  So
sides of which all parts belong to the tree (`Side.IsOver`) are the same exactly if they are equal
(`Side.same_iff`), and a trail is another one with its sides exchanged exactly if it looks like it
(`Trail.isSwapOf_iff`).

Every trail that a search of a parsed pattern finds is over the tree of the pattern
(`Search.isOver_of_mem_trails`).
-/
import Backtrack.Proofs.Derivation.Rooted
import Backtrack.Proofs.Search.Soundness

namespace Backtrack

/-! ## 1. Sides

Distinct numbers are not enough: the numbers have to be those of nodes of one tree.  So it is
asked of each part of a side that the tree has it. -/

/-- The iteration is one of a quantifier of the tree, and optional as its number says. -/
structure Turn.IsOver (root : Node) (i : Turn) : Prop where
  quantifier : ∃ body, root.Has (.quantifier i.quantifier body)
  optional : i.optional = true ↔ (i.quantifier.count.min : Int) ≤ i.index ∧ 1 ≤ i.index

/-- **All parts of the side belong to the tree.** -/
structure Side.IsOver (root : Node) (s : Side) : Prop where
  node : ∃ a, root.Has (.atom a) ∧ s.node = a.site.id ∧ s.span = a.site.span
  iterations : ∀ i ∈ s.iterations, i.IsOver root
  via : root.HasReferences s.via

/-- The side is about nodes of the tree. -/
structure Side.IsWithin (root : Node) (s : Side) : Prop where
  node : ∃ a, root.Has (.atom a) ∧ s.node = a.site.id ∧ s.span = a.site.span
  quantifiers : ∀ i ∈ s.iterations, ∃ body, root.Has (.quantifier i.quantifier body)
  via : root.HasReferences s.via

theorem Side.IsOver.isWithin {root : Node} {s : Side} (h : s.IsOver root) : s.IsWithin root :=
  ⟨h.node, fun i hi => (h.iterations i hi).quantifier, h.via⟩

/-- What one function makes of two lists is the same if another one makes the same of them, and what
that makes of their members tells what the first one makes of them. -/
theorem map_eq_of_map_eq {α β γ : Type} {f : α → β} {g : α → γ} : ∀ {as bs : List α},
    as.map f = bs.map f → (∀ a ∈ as, ∀ b ∈ bs, f a = f b → g a = g b) → as.map g = bs.map g
  | [], [], _, _ => rfl
  | [], _ :: _, h, _ => by simp at h
  | _ :: _, [], h, _ => by simp at h
  | a :: as, b :: bs, h, tells => by
    obtain ⟨head, tail⟩ := List.cons.inj h
    rw [List.map_cons, List.map_cons, tells a List.mem_cons_self b List.mem_cons_self head,
      map_eq_of_map_eq tail fun a ha b hb =>
        tells a (List.mem_cons_of_mem _ ha) b (List.mem_cons_of_mem _ hb)]

/-- Lists are equal if a function that tells their members apart makes the same of them. -/
theorem eq_of_map_eq {α β : Type} {f : α → β} {as bs : List α} (h : as.map f = bs.map f)
    (apart : ∀ a ∈ as, ∀ b ∈ bs, f a = f b → a = b) : as = bs := by
  have := map_eq_of_map_eq (g := id) h apart
  rwa [List.map_id, List.map_id] at this

section Trees

variable {root : Node}

theorem Turn.IsOver.eq (distinct : root.IsDistinct) {i j : Turn} (hi : i.IsOver root)
    (hj : j.IsOver root) (id : i.quantifier.site.id = j.quantifier.site.id)
    (index : i.index = j.index) : i = j := by
  obtain ⟨q, m, o⟩ := i
  obtain ⟨q', m', o'⟩ := j
  obtain ⟨⟨body, hq⟩, optional⟩ := hi
  obtain ⟨⟨body', hq'⟩, optional'⟩ := hj
  obtain ⟨rfl, -⟩ := Node.quantifier.inj (Node.eq_of_id distinct hq.mem hq'.mem id)
  obtain rfl : m = m' := index
  obtain rfl : o = o' := Bool.eq_iff_iff.mpr (optional.trans optional'.symm)
  rfl

theorem Node.HasReferences.eq (distinct : root.IsDistinct) {via via' : List Reference}
    (h : root.HasReferences via) (h' : root.HasReferences via')
    (ids : via.map (·.site.id) = via'.map (·.site.id)) : via = via' :=
  eq_of_map_eq ids fun r hr r' hr' id =>
    Node.reference.inj (Node.eq_of_id distinct (h r hr).mem (h' r' hr').mem id)

namespace Side

/-- **Sides of one tree are the same if they are equal.**  A number belongs to one node of the
tree, and an iteration of a quantifier is optional or not by its number. -/
theorem same_iff (distinct : root.IsDistinct) {s t : Side} (hs : s.IsOver root)
    (ht : t.IsOver root) : s.same t = true ↔ s = t := by
  rw [same, beq_iff_eq]
  refine ⟨fun h => ?_, congrArg identity⟩
  obtain ⟨node, turns, via⟩ := Identity.mk.inj h
  obtain ⟨a, ha, hna, hsa⟩ := hs.node
  obtain ⟨b, hb, hnb, hsb⟩ := ht.node
  obtain rfl : a = b := Node.atom.inj
    (Node.eq_of_id distinct ha.mem hb.mem (hna.symm.trans (node.trans hnb)))
  have iterations : s.iterations = t.iterations := eq_of_map_eq turns fun i hi j hj same => by
    obtain ⟨id, index⟩ := Prod.mk.inj same
    exact (hs.iterations i hi).eq distinct (ht.iterations j hj) id index
  calc s = ⟨s.node, s.span, s.iterations, s.via⟩ := rfl
    _ = ⟨t.node, t.span, t.iterations, t.via⟩ := by
      rw [node, hsa, hsb, iterations, hs.via.eq distinct ht.via via]

/-- What a run shows is a side over its tree. -/
theorem isOver_of_shown {s : Resolver.Sighting} (h : Resolver.Shown root s) :
    (Search.side s).IsOver root where
  node := ⟨s.atom, h.atom, rfl, rfl⟩
  iterations := by
    intro t ht
    obtain ⟨i, hi, rfl⟩ := List.mem_map.mp ht
    obtain ⟨f, hf, hfi⟩ := List.mem_filterMap.mp hi
    cases f with
    | group g => simp at hfi
    | iteration j =>
      obtain rfl : j = i := Option.some.inj hfi
      obtain ⟨n, hn, hm⟩ := h.frames _ hf
      cases hm with
      | iteration body of =>
        obtain ⟨rfl, -, optional⟩ := of
        refine ⟨⟨body, hn⟩, ?_⟩
        simp only [Turn.ofIteration, optional]
        omega
  via := h.via

end Side

/-! ## 2. Trails -/

namespace Trail

/-- All sides of the trail are over the tree. -/
def IsOver (root : Node) (t : Trail) : Prop :=
  ∀ e ∈ t.entries, e.left.IsOver root ∧ e.right.IsOver root

/-- **The trail is the other one with left and right exchanged.** -/
def Mirrors (t u : Trail) : Prop :=
  t.entries.map (fun e => (e.left, e.right)) = u.entries.map fun e => (e.right, e.left)

theorem Mirrors.symm {t u : Trail} (h : t.Mirrors u) : u.Mirrors t := by
  have := congrArg (List.map Prod.swap) h
  simpa [Mirrors, Function.comp_def] using this.symm

theorem swapped_iff (distinct : root.IsDistinct) : ∀ {ds es : List Entry},
    (∀ e ∈ ds, e.left.IsOver root ∧ e.right.IsOver root) →
    (∀ e ∈ es, e.left.IsOver root ∧ e.right.IsOver root) →
    (swapped ds es = true ↔
      ds.map (fun e => (e.left, e.right)) = es.map fun e => (e.right, e.left))
  | [], [], _, _ => by simp [swapped]
  | [], _ :: _, _, _ => by simp [swapped]
  | _ :: _, [], _, _ => by simp [swapped]
  | d :: ds, e :: es, hd, he => by
    obtain ⟨⟨dl, dr⟩, hds⟩ := List.forall_mem_cons.mp hd
    obtain ⟨⟨el, er⟩, hes⟩ := List.forall_mem_cons.mp he
    simp only [swapped, Bool.and_eq_true, Side.same_iff distinct dl er,
      Side.same_iff distinct dr el, swapped_iff distinct hds hes, List.map_cons, List.cons.injEq,
      Prod.mk.injEq]

/-- **Trails over one tree are compared as they look.**  Entry by entry, the sides that are
compared by numbers are equal. -/
theorem isSwapOf_iff (distinct : root.IsDistinct) {t u : Trail} (ht : t.IsOver root)
    (hu : u.IsOver root) : t.isSwapOf u = true ↔ t.Mirrors u := by
  rw [isSwapOf, swapped_iff distinct (fun e he => ht e (List.mem_reverse.mpr he))
    (fun e he => hu e (List.mem_reverse.mpr he)), Mirrors, entries, entries, List.map_reverse,
    List.map_reverse, List.reverse_inj]

end Trail

end Trees

/-! ## 3. Searches -/

namespace Search

variable {p : Pattern}

/-- What a leaf shows after any run is over the tree. -/
theorem isOver_of_leads {n m : Nat} {ss : List Resolver.Sighting} {r : Resolver}
    (h : Resolver.Leads (Subject.ofPattern p) (Resolver.ofPattern p) n ss r m) :
    ∀ s ∈ ss, (side s).IsOver p.root := by
  obtain ⟨es, run, rfl, -⟩ := h
  exact fun s hs => Side.isOver_of_shown (Resolver.shown_of_run run s hs)

/-- Backed work has come to leaves whose sides are over the tree. -/
theorem Backed.isOver_side {w : Work} {ls rs : List Resolver.Sighting} (h : Backed p w ls rs)
    {o : Options} {c : Candidate} :
    (w.left.move (contextOf p o) = .ok (.consumes c) → c.side.IsOver p.root) ∧
      (w.right.move (contextOf p o) = .ok (.consumes c) → c.side.IsOver p.root) :=
  ⟨fun hm => isOver_of_leads (h.left.trans (leads_of_consumes hm).2) c.sighting (by simp),
    fun hm => isOver_of_leads (h.right.trans (leads_of_consumes hm).2) c.sighting (by simp)⟩

theorem Backed.isOver_trail {w : Work} {ls rs : List Resolver.Sighting} (h : Backed p w ls rs) :
    w.trail.IsOver p.root := by
  intro e he
  obtain ⟨i, hi⟩ := List.mem_iff_getElem?.mp he
  obtain ⟨l, r, hl, hr, shows⟩ := h.trail.entry i e hi
  rw [shows.left, shows.right]
  exact ⟨isOver_of_leads h.left l (List.mem_of_getElem? hl),
    isOver_of_leads h.right r (List.mem_of_getElem? hr)⟩

theorem backed_of_initial : ∀ w ∈ (State.initial p).stack, ∃ ls rs, Backed p w ls rs := by
  intro w hw
  rw [List.mem_singleton.mp hw]
  exact ⟨[], [], backed_initial p⟩

/-- **What a search finds is over the tree of its pattern.** -/
theorem isOver_of_mem_trails {source : Bytes} {flags : Flags} {o : Options} {res : Result}
    (parsed : Pattern.parse source flags = .ok p) (searched : outcome p o = .ok res) :
    ∀ t ∈ res.trails, t.IsOver p.root := by
  intro t ht
  obtain ⟨w, ls, rs, backed, -, rfl⟩ := isBacked_of_run (Pattern.isWellFormed_of_parse parsed)
    backed_of_initial (by simp [State.initial]) searched t ht
  exact backed.isOver_trail

/-- The text is a pattern, and its search has a result that passes the test. -/
def finds (source : Bytes) (test : Result → Bool) : Bool :=
  match Pattern.parse source {} with
  | .ok p =>
    match outcome p {} with
    | .ok res => test res
    | .error _ => false
  | .error _ => false

theorem exists_of_finds {source : Bytes} {test : Result → Bool} (h : finds source test = true) :
    ∃ p res, Pattern.parse source {} = .ok p ∧ outcome p {} = .ok res ∧ test res = true := by
  unfold finds at h
  split at h
  · rename_i p parsed
    split at h
    · rename_i res searched
      exact ⟨p, res, parsed, searched, h⟩
    · cases h
  · cases h

end Search

end Backtrack
