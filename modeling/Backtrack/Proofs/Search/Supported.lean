/-
# Searching what has been downgraded

A search gives up on a reference only where a path of the pattern cannot follow it
(`Search.exists_run_of_outcome_error`).  So what has been downgraded can be searched to the end,
whatever the bounds, if no group that a reference remains to repeats without bound after the revision
(`Pattern.outcome_downgrade`).

The condition is needed.  Which references are replaced is decided before anything is replaced: in
`(a+)(b\1)\2` the second group repeats nothing by itself, but with the copy of the first group in it,
it does, and the search gives up on the reference that remains to it
(`Search.gives_up_after_downgrade`).
-/
import Backtrack.Proofs.Pattern.Followed
import Backtrack.Proofs.Search.Soundness

namespace Backtrack

open Resolver

namespace Search

/-! ## 1. Where a search gives up

A search goes along runs of its pattern, so a reference it cannot follow is one that some run
comes to. -/

/-- Where `fetch` gives up, a path does. -/
theorem exists_run_of_fetch_error {x : Subject} {starts : Nat} {r : Resolver} {u : Unsupported}
    (h : r.fetch x starts = .error u) :
    ∃ es t, Run (step x) r es t ∧ t.next x = .error u := by
  fun_induction fetch x starts r with
  | case1 starts r u' hn =>
    obtain rfl := Except.error.inj h
    exact ⟨[], r, .nil r, hn⟩
  | case2 starts r fs r₁ hn ih =>
    obtain ⟨es, t, run, ht⟩ := ih h
    exact ⟨_, t, .cons (.onward (step_eq_some.mpr hn) rfl) run, ht⟩
  | case3 starts r fs r₁ hn ih =>
    obtain ⟨es, t, run, ht⟩ := ih h
    exact ⟨_, t, .cons (.onward (step_eq_some.mpr hn) rfl) run, ht⟩
  | case4 => cases h

theorem exists_run_of_move_error {x : Context} {h : Half} {u : Unsupported}
    (hm : h.move x = .error u) :
    ∃ es t, Run (step x.subject) h.position es t ∧ t.next x.subject = .error u := by
  unfold Half.move at hm
  cases hf : h.position.fetch x.subject h.starts with
  | error u' =>
    rw [hf] at hm
    obtain rfl := Except.error.inj hm
    exact exists_run_of_fetch_error hf
  | ok f =>
    obtain ⟨n, e, r⟩ := f
    rw [hf] at hm
    cases e <;> cases hm

/-- A step gives up when one of the two halves does. -/
theorem move_error_of_expand {x : Context} {found : List Trail} {w : Work} {u : Unsupported}
    (h : expand x found w = .error (.unsupported u)) :
    w.left.move x = .error u ∨ w.right.move x = .error u := by
  unfold expand at h
  split at h
  · rename_i u' hl
    obtain rfl := Failure.unsupported.inj (Except.error.inj h)
    exact .inl hl
  · cases h
  split at h
  · rename_i u' hr
    obtain rfl := Failure.unsupported.inj (Except.error.inj h)
    exact .inr hr
  · cases h
  split at h
  · unfold expandPair at h
    split at h <;> cases h
  · cases h

/-- **A search gives up only where a path of the pattern does.**  The halves of all work on the
stack have been led to by runs, and it is the next event of one of them that cannot be
followed. -/
theorem exists_run_of_run_error {p : Pattern} (wf : p.IsWellFormed) {o : Options}
    {u : Unsupported} {n : Nat} : ∀ {budget : Nat} {s : State},
      (∀ w ∈ s.stack, ∃ ls rs, Backed p w ls rs) →
      run (contextOf p o) budget s = .error ⟨.unsupported u, n⟩ →
      ∃ es t, Run (step (Subject.ofPattern p)) (ofPattern p) es t ∧
        t.next (Subject.ofPattern p) = .error u := by
  intro budget
  induction budget with
  | zero =>
    intro s _ hr
    unfold run at hr
    split at hr <;> cases hr
  | succ budget ih =>
    intro s hs hr
    unfold run at hr
    split at hr
    · cases hr
    rename_i w rest hstack
    dsimp only at hr
    rw [hstack, List.forall_mem_cons] at hs
    obtain ⟨⟨ls, rs, hw⟩, hrest⟩ := hs
    split at hr
    · cases hr
    split at hr
    · cases hr
    split at hr
    · rename_i f he
      obtain ⟨rfl, -⟩ := Stuck.mk.inj (Except.error.inj hr)
      have extend : ∀ {ss : List Sighting} {m : Nat} {h : Half},
          Leads (Subject.ofPattern p) (ofPattern p) 0 ss h.position m →
          h.move (contextOf p o) = .error u →
          ∃ es t, Run (step (Subject.ofPattern p)) (ofPattern p) es t ∧
            t.next (Subject.ofPattern p) = .error u := by
        rintro ss m h ⟨es, run, -⟩ hm
        obtain ⟨fs, t, run', ht⟩ := exists_run_of_move_error hm
        exact ⟨es ++ fs, t, run.append run', ht⟩
      rcases move_error_of_expand he with hm | hm
      · exact extend hw.left hm
      · exact extend hw.right hm
    · cases hr
    · rename_i work new he
      obtain ⟨hwork, -⟩ := backed_of_expand wf hw he
      refine ih (fun w' hw' => ?_) hr
      rcases List.mem_append.mp hw' with hw' | hw'
      · exact hwork w' hw'
      · exact hrest w' hw'

theorem exists_run_of_outcome_error {p : Pattern} (wf : p.IsWellFormed) {o : Options}
    {u : Unsupported} {n : Nat} (h : outcome p o = .error ⟨.unsupported u, n⟩) :
    ∃ es t, Run (step (Subject.ofPattern p)) (ofPattern p) es t ∧
      t.next (Subject.ofPattern p) = .error u := by
  refine exists_run_of_run_error wf (fun w hw => ?_) h
  rw [List.mem_singleton.mp hw]
  exact ⟨[], [], backed_initial p⟩

end Search

/-! ## 2. Downgraded patterns

What has been downgraded is a tree whose references can be followed, and along its runs there is
none that cannot. -/

/-- **What has been downgraded can be searched**, if no group that a reference remains to repeats
without bound after the revision: along each path all references can be followed, and no search
gives up on one. -/
theorem Pattern.outcome_downgrade {source : Bytes} {flags : Flags} {p : Pattern}
    (h : parse source flags = .ok p) (limit : source.length < numberLimit)
    (known : ∀ r ∈ Downgrade.references p.root, 1 ≤ r.index)
    (outside : Downgrade.IsOutside p.root) (bounded : Downgrade.StaysBounded p.root) :
    ∃ d, p.downgrade = .ok d ∧
      (∀ es r, Run (step (Subject.ofPattern d.pattern)) (ofPattern d.pattern) es r →
        ∃ e, r.next (Subject.ofPattern d.pattern) = .ok e) ∧
      ∀ o u n, Search.outcome d.pattern o ≠ .error ⟨.unsupported u, n⟩ := by
  obtain ⟨d, hd, follow⟩ := exists_followable h limit known outside bounded
  obtain ⟨source', flags', parsed⟩ := exists_parse_of_downgrade h hd
  have wf := isWellFormed_of_parse parsed
  have paths : ∀ es r, Run (step (Subject.ofPattern d.pattern)) (ofPattern d.pattern) es r →
      ∃ e, r.next (Subject.ofPattern d.pattern) = .ok e :=
    fun _ _ run => exists_next_of_run follow wf.distinct run
  refine ⟨d, hd, paths, fun o u n stuck => ?_⟩
  obtain ⟨es, t, run, ht⟩ := Search.exists_run_of_outcome_error wf stuck
  obtain ⟨e, he⟩ := paths es t run
  rw [ht] at he
  cases he

/-- In `(a+)\1(b)\2` the first reference is replaced; the second one remains, to a group that is one
character. -/
theorem Pattern.outcome_downgrade_of_two :
    ∃ p d, parse (Bytes.ofString "(a+)\\1(b)\\2") {} = .ok p ∧
      (∀ r ∈ Downgrade.references p.root, 1 ≤ r.index) ∧ Downgrade.IsOutside p.root ∧
      Downgrade.StaysBounded p.root ∧ p.downgrade = .ok d ∧ d.changed = true ∧
      ∀ o u n, Search.outcome d.pattern o ≠ .error ⟨.unsupported u, n⟩ := by
  let a : Node := .quantifier ⟨⟨2, 1, 3⟩, ⟨1, none, false⟩⟩ (.atom ⟨⟨1, 1, 2⟩, .char 97⟩)
  let b : Node := .atom ⟨⟨5, 7, 8⟩, .char 98⟩
  let p : Pattern :=
    { source := Bytes.ofString "(a+)\\1(b)\\2"
      flags := {}
      root := .sequence ⟨8, 0, 11⟩
        [.group ⟨⟨3, 0, 4⟩, .capture, 1, []⟩ a, .reference ⟨⟨4, 4, 6⟩, 1, []⟩,
          .group ⟨⟨6, 6, 9⟩, .capture, 2, []⟩ b, .reference ⟨⟨7, 9, 11⟩, 2, []⟩]
      captures := 2 }
  have parsed : parse (Bytes.ofString "(a+)\\1(b)\\2") {} = .ok p := by
    with_unfolding_all rfl
  have known : ∀ r ∈ Downgrade.references p.root, 1 ≤ r.index := by decide
  have outside : Downgrade.IsOutside p.root := by decide
  have bounded : Downgrade.StaysBounded p.root := by
    intro r g body hr hf hg hc hi
    have references : r = ⟨⟨4, 4, 6⟩, 1, []⟩ ∨ r = ⟨⟨7, 9, 11⟩, 2, []⟩ := by
      simpa [p, a, b, Node.walk, Node.walkAll] using hr
    have groups : g = ⟨⟨3, 0, 4⟩, .capture, 1, []⟩ ∧ body = a ∨
        g = ⟨⟨6, 6, 9⟩, .capture, 2, []⟩ ∧ body = b := by
      simpa [p, a, b, Node.walk, Node.walkAll] using hg
    rcases references with rfl | rfl
    · have : (Downgrade.revisionOf p.root).find? ⟨⟨4, 4, 6⟩, 1, []⟩ =
          some ⟨⟨⟨4, 4, 6⟩, 1, []⟩, a, false⟩ := rfl
      rw [this] at hf
      cases hf
    · rcases groups with ⟨rfl, rfl⟩ | ⟨rfl, rfl⟩
      · cases hi
      · rw [Revision.revised]
        rfl
  obtain ⟨d, hd, -, searched⟩ := outcome_downgrade parsed (by decide) known outside bounded
  have changed : d.changed = true := by
    rw [changed_of_downgrade hd]
    decide
  exact ⟨p, d, parsed, known, outside, bounded, hd, changed, searched⟩

/-! ## 3. What cannot be searched -/

namespace Search

/-- The reference that a search has given up on. -/
def refusal? : Except Stuck Result → Option Unsupported
  | .error ⟨.unsupported u, _⟩ => some u
  | _ => none

theorem refusal?_eq_some {x : Except Stuck Result} {u : Unsupported} (h : refusal? x = some u) :
    ∃ n, x = .error ⟨.unsupported u, n⟩ := by
  unfold refusal? at h
  split at h
  · obtain rfl := Option.some.inj h
    exact ⟨_, rfl⟩
  · cases h

/-- Downgrading a source and searching the outcome gives up on a reference. -/
def GivesUp (source : Bytes) (reason : UnsupportedReason) : Prop :=
  ∃ p d r n, Pattern.parse source {} = .ok p ∧ p.downgrade = .ok d ∧
    outcome d.pattern { atomicOffsets := d.atomicOffsets.map Int.ofNat } =
      .error ⟨.unsupported ⟨r, reason⟩, n⟩

/-- A copy makes the group unbounded to which a reference remains. -/
theorem gives_up_of_growing : GivesUp (Bytes.ofString "(a+)(b\\1)\\2") .unbounded := by
  let a : Node := .quantifier ⟨⟨2, 1, 3⟩, ⟨1, none, false⟩⟩ (.atom ⟨⟨1, 1, 2⟩, .char 97⟩)
  let r : Reference := ⟨⟨5, 6, 8⟩, 1, []⟩
  let s : Reference := ⟨⟨8, 9, 11⟩, 2, []⟩
  let p : Pattern :=
    { source := Bytes.ofString "(a+)(b\\1)\\2"
      flags := {}
      root := .sequence ⟨9, 0, 11⟩
        [.group ⟨⟨3, 0, 4⟩, .capture, 1, []⟩ a,
          .group ⟨⟨7, 4, 9⟩, .capture, 2, []⟩
            (.sequence ⟨6, 5, 8⟩ [.atom ⟨⟨4, 5, 6⟩, .char 98⟩, .reference r]),
          .reference s]
      captures := 2 }
  let w : Revision := ⟨[], [⟨r, a, false⟩]⟩
  let ps : List Piece := [⟨.opening .capture [], false⟩, ⟨.leaf (.char 97), false⟩,
    ⟨.count ⟨1, none, false⟩, false⟩, ⟨.closing, false⟩, ⟨.opening .capture [], false⟩,
    ⟨.leaf (.char 98), false⟩, ⟨.opening .nonCapture [], false⟩, ⟨.leaf (.char 97), false⟩,
    ⟨.count ⟨1, none, false⟩, false⟩, ⟨.closing, false⟩, ⟨.closing, false⟩,
    ⟨.reference 2 [], false⟩]
  let q : Pattern :=
    { source := Bytes.ofString "(a+)(b(?:a+))\\2"
      flags := {}
      root := .sequence ⟨11, 0, 15⟩
        [.group ⟨⟨3, 0, 4⟩, .capture, 1, []⟩ a,
          .group ⟨⟨9, 4, 13⟩, .capture, 2, []⟩
            (.sequence ⟨8, 5, 12⟩ [.atom ⟨⟨4, 5, 6⟩, .char 98⟩,
              .group ⟨⟨7, 6, 12⟩, .nonCapture, 0, []⟩
                (.quantifier ⟨⟨6, 9, 11⟩, ⟨1, none, false⟩⟩ (.atom ⟨⟨5, 9, 10⟩, .char 97⟩))]),
          .reference ⟨⟨10, 13, 15⟩, 2, []⟩]
      captures := 2 }
  have parsed : Pattern.parse (Bytes.ofString "(a+)(b\\1)\\2") {} = .ok p := by
    with_unfolding_all rfl
  have found : w.find? r = some ⟨r, a, false⟩ := rfl
  have remains : w.find? s = none := rfl
  have pieces : w.pieces (w.kept p.root) [] p.root = ps := by
    have omitted : w.omitted = [] := rfl
    have kept : w.kept p.root = [1, 2] := rfl
    have last : w.pieces [1, 2] [] (.reference s) = [⟨.reference 2 [], false⟩] :=
      Revision.pieces_kept (by decide) rfl
    rw [kept]
    simp [p, a, ps, Revision.pieces, Revision.piecesAll, omitted, Revision.pieces_copy _ found, last,
      Revision.openingToken, Group.isCapture]
  have written : Pattern.parse (Revision.textOf (Revision.separate ps)) p.flags = .ok q := by
    with_unfolding_all rfl
  obtain ⟨n, stuck⟩ := refusal?_eq_some (x := outcome q {})
    (u := ⟨⟨⟨10, 13, 15⟩, 2, []⟩, .unbounded⟩) (by decide +kernel)
  exact ⟨p, _, _, n, parsed, Pattern.downgrade_of_pieces rfl rfl pieces written, stuck⟩

/-- A reference in its own group is copied out of it, and out of a lookaround. -/
theorem gives_up_of_inner : GivesUp (Bytes.ofString "(?=((a\\2)b))c\\1") .intoLookaround := by
  let s : Reference := ⟨⟨2, 6, 8⟩, 2, []⟩
  let body : Node := .sequence ⟨6, 4, 10⟩
    [.group ⟨⟨4, 4, 9⟩, .capture, 2, []⟩
      (.sequence ⟨3, 5, 8⟩ [.atom ⟨⟨1, 5, 6⟩, .char 97⟩, .reference s]),
      .atom ⟨⟨5, 9, 10⟩, .char 98⟩]
  let r : Reference := ⟨⟨10, 13, 15⟩, 1, []⟩
  let p : Pattern :=
    { source := Bytes.ofString "(?=((a\\2)b))c\\1"
      flags := {}
      root := .sequence ⟨11, 0, 15⟩
        [.group ⟨⟨8, 0, 12⟩, .lookahead, 0, []⟩ (.group ⟨⟨7, 3, 11⟩, .capture, 1, []⟩ body),
          .atom ⟨⟨9, 12, 13⟩, .char 99⟩, .reference r]
      captures := 2 }
  let w : Revision := ⟨[], [⟨r, body, false⟩]⟩
  let ps : List Piece := [⟨.opening .lookahead [], false⟩, ⟨.opening .capture [], false⟩,
    ⟨.opening .capture [], false⟩, ⟨.leaf (.char 97), false⟩, ⟨.reference 2 [], false⟩,
    ⟨.closing, false⟩, ⟨.leaf (.char 98), false⟩, ⟨.closing, false⟩, ⟨.closing, false⟩,
    ⟨.leaf (.char 99), false⟩, ⟨.opening .nonCapture [], false⟩, ⟨.opening .nonCapture [], false⟩,
    ⟨.leaf (.char 97), false⟩, ⟨.reference 2 [], false⟩, ⟨.closing, false⟩,
    ⟨.leaf (.char 98), false⟩, ⟨.closing, false⟩]
  let q : Pattern :=
    { source := Bytes.ofString "(?=((a\\2)b))c(?:(?:a\\2)b)"
      flags := {}
      root := .sequence ⟨17, 0, 25⟩
        [.group ⟨⟨8, 0, 12⟩, .lookahead, 0, []⟩ (.group ⟨⟨7, 3, 11⟩, .capture, 1, []⟩ body),
          .atom ⟨⟨9, 12, 13⟩, .char 99⟩,
          .group ⟨⟨16, 13, 25⟩, .nonCapture, 0, []⟩
            (.sequence ⟨15, 16, 24⟩
              [.group ⟨⟨13, 16, 23⟩, .nonCapture, 0, []⟩
                (.sequence ⟨12, 19, 22⟩
                  [.atom ⟨⟨10, 19, 20⟩, .char 97⟩, .reference ⟨⟨11, 20, 22⟩, 2, []⟩]),
                .atom ⟨⟨14, 23, 24⟩, .char 98⟩])]
      captures := 2 }
  have parsed : Pattern.parse (Bytes.ofString "(?=((a\\2)b))c\\1") {} = .ok p := by
    with_unfolding_all rfl
  have found : w.find? r = some ⟨r, body, false⟩ := rfl
  have pieces : w.pieces (w.kept p.root) [] p.root = ps := by
    have omitted : w.omitted = [] := rfl
    have kept : w.kept p.root = [1, 2] := rfl
    have there : w.pieces [1, 2] [] (.reference s) = [⟨.reference 2 [], false⟩] :=
      Revision.pieces_kept (by decide) rfl
    have copied : w.pieces [1, 2] [r.index] (.reference s) = [⟨.reference 2 [], false⟩] :=
      Revision.pieces_kept (by decide) rfl
    rw [kept]
    simp [p, body, ps, Revision.pieces, Revision.piecesAll, omitted, Revision.pieces_copy _ found,
      there, copied, Revision.openingToken, Group.isCapture]
  have written : Pattern.parse (Revision.textOf (Revision.separate ps)) p.flags = .ok q := by
    with_unfolding_all rfl
  obtain ⟨n, stuck⟩ := refusal?_eq_some (x := outcome q {})
    (u := ⟨⟨⟨11, 20, 22⟩, 2, []⟩, .intoLookaround⟩) (by decide +kernel)
  exact ⟨p, _, _, n, parsed, Pattern.downgrade_of_pieces rfl rfl pieces written, stuck⟩

/-- **Downgrading leaves references that cannot be followed**: to a group that has become unbounded,
and into a lookaround. -/
theorem gives_up_after_downgrade :
    GivesUp (Bytes.ofString "(a+)(b\\1)\\2") .unbounded ∧
      GivesUp (Bytes.ofString "(?=((a\\2)b))c\\1") .intoLookaround :=
  ⟨gives_up_of_growing, gives_up_of_inner⟩

end Search

end Backtrack
