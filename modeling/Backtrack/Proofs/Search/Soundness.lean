/-
# Every trail is the trace of two runs

A trail claims that two derivations of a pattern consume the same input although they stand at
different places.  Here is what backs the claim: two runs of the pattern, whose consuming events
are, one by one, the left and the right sides of the trail.

The search never looks back at a run; all it has is the pair of places on its stack.  So the
runs are recovered from the stack: every piece of work on it is `Backed` by two runs from the
start that lead to its halves and leave its trail behind.  One step keeps that
(`backed_of_expand`), whichever half splits and whatever is forgotten on the way, and a trail is
only ever found as the trail of backed work whose sides have differed.
-/
import Backtrack.Proofs.Derivation.Origin
import Backtrack.Proofs.Search.Steps

namespace Backtrack

open Resolver

/-! ## 1. What an entry shows

A trail has the sides of both runs, and what the two leaves share.  Each entry is compared with
the pair of sightings that it was made of. -/

/-- An entry of a trail shows two consuming events: its sides are theirs, they agree on the
start of the input and on the lookarounds, and it is about the characters both accept. -/
structure Entry.Shows (flags : Flags) (e : Entry) (l r : Sighting) : Prop where
  left : e.left = Search.side l
  right : e.right = Search.side r
  starts : l.starts = r.starts
  lookarounds : Frames.lookarounds l.frames = Frames.lookarounds r.frames
  shared : ∃ g o, l.atom.requirement flags = .ok g ∧ r.atom.requirement flags = .ok o ∧
    ∀ c : Int, 0 ≤ c → c ≤ 0x10FFFF →
      (e.shared.contains c = true ↔ g.contains c = true ∧ o.contains c = true)

/-- A trail shows the consuming events of two runs, entry by entry. -/
structure Trail.Shows (flags : Flags) (t : Trail) (ls rs : List Sighting) : Prop where
  left : ls.length = t.length
  right : rs.length = t.length
  entry : ∀ (i : Nat) (e : Entry), t.entries[i]? = some e →
    ∃ l r, ls[i]? = some l ∧ rs[i]? = some r ∧ e.Shows flags l r

theorem Trail.shows_empty (flags : Flags) : Trail.empty.Shows flags [] [] :=
  ⟨rfl, rfl, by simp [Trail.empty, Trail.entries]⟩

theorem Trail.entries_push (t : Trail) (e : Entry) : (t.push e).entries = t.entries ++ [e] := by
  simp [Trail.push, Trail.entries]

theorem Trail.length_entries (t : Trail) : t.entries.length = t.length := by
  simp [Trail.entries, Trail.length]

theorem Trail.Shows.push {flags : Flags} {t : Trail} {ls rs : List Sighting}
    (h : t.Shows flags ls rs) {e : Entry} {l r : Sighting} (he : e.Shows flags l r) :
    (t.push e).Shows flags (ls ++ [l]) (rs ++ [r]) := by
  refine ⟨?_, ?_, ?_⟩
  · rw [List.length_append, h.left]
    rfl
  · rw [List.length_append, h.right]
    rfl
  intro i d hd
  rw [Trail.entries_push] at hd
  rcases Nat.lt_or_ge i t.entries.length with hi | hi
  · rw [List.getElem?_append_left hi] at hd
    obtain ⟨l', r', hl, hr, hs⟩ := h.entry i d hd
    rw [Trail.length_entries] at hi
    refine ⟨l', r', ?_, ?_, hs⟩
    · rw [List.getElem?_append_left (h.left ▸ hi), hl]
    · rw [List.getElem?_append_left (h.right ▸ hi), hr]
  · rw [List.getElem?_append_right hi, List.getElem?_singleton] at hd
    split at hd
    · rename_i hz
      rw [Trail.length_entries] at hi hz
      obtain rfl := Option.some.inj hd
      refine ⟨l, r, ?_, ?_, he⟩
      · rw [List.getElem?_append_right (h.left ▸ hi), h.left, hz]
        rfl
      · rw [List.getElem?_append_right (h.right ▸ hi), h.right, hz]
        rfl
    · simp at hd

namespace Search

/-! ## 2. What two leaves share

Requirements that intersect are those of leaves of a parsed pattern, which have one, and then the
intersection accepts what both accept. -/

/-- **What two leaves of a parsed pattern share are the characters both accept.** -/
theorem exists_shared {p : Pattern} (wf : p.IsWellFormed) (o : Options) {l r : Atom}
    (hl : .atom l ∈ p.root.walk) (hr : .atom r ∈ p.root.walk) :
    ∃ g h shared, l.requirement p.flags = .ok g ∧ r.requirement p.flags = .ok h ∧
      (contextOf p o).shared l r = .ok shared ∧
      ∀ c : Int, 0 ≤ c → c ≤ 0x10FFFF →
        (shared.contains c = true ↔ g.contains c = true ∧ h.contains c = true) := by
  obtain ⟨g, hg, pg⟩ := Shape.exists_requirement (wf.sound _ hl) p.flags
  obtain ⟨h, hh, ph⟩ := Shape.exists_requirement (wf.sound _ hr) p.flags
  obtain ⟨shared, hs, -, hc⟩ := Requirement.exists_intersect pg ph
  refine ⟨g, h, shared, hg, hh, ?_, ?_⟩
  · have table : ∀ a, (contextOf p o).requirement a = a.requirement p.flags :=
      requirementIn_eq p.flags p.root
    simp only [Context.shared, table, Atom.requirement, hg, hh, hs]
  · intro c h0 h1
    rw [hc c h0 h1, Bool.and_eq_true]

/-! ## 3. Backed work

The runs are not part of the work and cannot be computed from it.  They are carried along as
something that exists, and each step makes them longer. -/

/-- Two runs from the start lead to the halves of the work, and its trail shows them. -/
structure Backed (p : Pattern) (w : Work) (ls rs : List Sighting) : Prop where
  left : Leads (Subject.ofPattern p) (ofPattern p) 0 ls w.left.position w.left.starts
  right : Leads (Subject.ofPattern p) (ofPattern p) 0 rs w.right.position w.right.starts
  trail : w.trail.Shows p.flags ls rs
  equal : w.equal = false → ∃ e ∈ w.trail.entries, e.left.same e.right = false

theorem backed_initial (p : Pattern) : Backed p (Work.initial (ofPattern p)) [] [] :=
  ⟨.refl .., .refl .., Trail.shows_empty p.flags, by simp [Work.initial]⟩

/-- The trail of some backed work, once its sides have differed. -/
def IsBacked (p : Pattern) (t : Trail) : Prop :=
  ∃ w ls rs, Backed p w ls rs ∧ w.equal = false ∧ w.trail = t

theorem mem_walk_of_leads {p : Pattern} {n m : Nat} {ss : List Sighting} {r : Resolver}
    (h : Leads (Subject.ofPattern p) (ofPattern p) n ss r m) :
    ∀ s ∈ ss, .atom s.atom ∈ p.root.walk := by
  obtain ⟨es, run, rfl, -⟩ := h
  exact mem_walk_of_mem_sightings run

/-- Two leaves that are followed together leave backed work behind. -/
theorem Backed.proceed {p : Pattern} (wf : p.IsWellFormed) {o : Options} {w w' : Work}
    {l r : Candidate} {ls rs : List Sighting} (h : Backed p w ls rs)
    (hl : w.left.move (contextOf p o) = .ok (.consumes l))
    (hr : w.right.move (contextOf p o) = .ok (.consumes r))
    (hc : compare (contextOf p o) w l r = .ok (.proceed w')) :
    Backed p w' (ls ++ [l.sighting]) (rs ++ [r.sighting]) := by
  have left := h.left.trans (leads_of_consumes hl).2
  have right := h.right.trans (leads_of_consumes hr).2
  obtain ⟨pointless, -, -, shared, hs, -, rfl⟩ := compare_eq_proceed_iff.mp hc
  obtain ⟨g, q, shared', hg, hq, hs', contains⟩ := exists_shared wf o
    (mem_walk_of_leads left l.sighting (by simp)) (mem_walk_of_leads right r.sighting (by simp))
  obtain rfl : shared' = shared := Except.ok.inj (hs'.symm.trans hs)
  simp only [isPointless, Bool.or_eq_false_iff, bne_eq_false_iff_eq] at pointless
  obtain ⟨⟨⟨starts, lookarounds⟩, -⟩, -⟩ := pointless
  refine ⟨left, right, h.trail.push ?_, ?_⟩
  · exact ⟨rfl, rfl, starts, lookarounds, g, q, hg, hq, contains⟩
  · intro differ
    rw [Trail.entries_push]
    cases hw : w.equal with
    | false =>
      obtain ⟨e, he, hs⟩ := h.equal hw
      exact ⟨e, List.mem_append_left _ he, hs⟩
    | true =>
      refine ⟨_, List.mem_append_right _ List.mem_cons_self, ?_⟩
      simpa [hw] using differ

/-- **One step leaves backed work behind, and finds only trails of backed work.**  A split leads
both halves on by runs of their own, and two leaves that are followed make both runs longer by one
sighting. -/
theorem backed_of_expand {p : Pattern} (wf : p.IsWellFormed) {o : Options} {found : List Trail}
    {w : Work} {work : List Work} {new : Option Trail} {ls rs : List Sighting}
    (h : Backed p w ls rs) (he : expand (contextOf p o) found w = .ok (.replace work new)) :
    (∀ w' ∈ work, ∃ ls rs, Backed p w' ls rs) ∧ ∀ t, new = some t → IsBacked p t := by
  rcases expand_cases he with ⟨stay, enter, hl, rfl, rfl⟩ | ⟨stay, enter, hr, rfl, rfl⟩ |
    ⟨rfl, rfl⟩ | ⟨l, r, w', hl, hr, hc, rfl, rfl⟩
  · have left : ∀ t, t = stay ∨ t = enter → Backed p { w with left := t } ls rs := by
      intro t ht
      have := h.left.trans (leads_of_splits hl t ht).2
      rw [List.append_nil] at this
      exact ⟨this, h.right, h.trail, h.equal⟩
    refine ⟨?_, by simp⟩
    simp only [List.mem_cons, List.not_mem_nil, or_false]
    rintro w' (rfl | rfl)
    · exact ⟨ls, rs, left stay (.inl rfl)⟩
    · exact ⟨ls, rs, left enter (.inr rfl)⟩
  · have right : ∀ t, t = stay ∨ t = enter → Backed p { w with right := t } ls rs := by
      intro t ht
      have := h.right.trans (leads_of_splits hr t ht).2
      rw [List.append_nil] at this
      exact ⟨h.left, this, h.trail, h.equal⟩
    refine ⟨?_, by simp⟩
    simp only [List.mem_cons, List.not_mem_nil, or_false]
    rintro w' (rfl | rfl)
    · exact ⟨ls, rs, right stay (.inl rfl)⟩
    · exact ⟨ls, rs, right enter (.inr rfl)⟩
  · exact ⟨by simp, by simp⟩
  · have backed := h.proceed wf hl hr hc
    refine ⟨?_, ?_⟩
    · intro w₁ hw
      rw [List.mem_singleton.mp hw]
      exact ⟨_, _, backed⟩
    · intro t ht
      split at ht
      · rename_i hnew
        simp only [Bool.and_eq_true, Bool.not_eq_true'] at hnew
        exact ⟨w', _, _, backed, hnew.1, Option.some.inj ht⟩
      · simp at ht

/-! ## 4. The whole search -/

/-- What each step hands down along the work, and shows of the trail it finds, holds of all trails
of a search, however it ends. -/
theorem forall_trails_of_run {x : Context} {I : Work → Prop} {T : Trail → Prop}
    (expands : ∀ {found w work new}, I w → expand x found w = .ok (.replace work new) →
      (∀ w' ∈ work, I w') ∧ ∀ t, new = some t → T t) {res : Result} :
    ∀ {budget : Nat} {s : State}, (∀ w ∈ s.stack, I w) → (∀ t ∈ s.found, T t) →
      run x budget s = .ok res → ∀ t ∈ res.trails, T t := by
  have finish : ∀ {s : State} {status : Status}, (∀ t ∈ s.found, T t) →
      ∀ t ∈ (s.finish status).trails, T t :=
    fun hf t ht => hf t (List.mem_reverse.mp ht)
  intro budget
  induction budget with
  | zero =>
    intro s hs hf hr
    unfold run at hr
    split at hr
    · obtain rfl := Except.ok.inj hr
      exact finish hf
    · obtain rfl := Except.ok.inj hr
      exact finish hf
  | succ budget ih =>
    intro s hs hf hr
    unfold run at hr
    split at hr
    · obtain rfl := Except.ok.inj hr
      exact finish hf
    rename_i w rest hstack
    dsimp only at hr
    rw [hstack, List.forall_mem_cons] at hs
    split at hr
    · obtain rfl := Except.ok.inj hr
      exact finish hf
    split at hr
    · obtain rfl := Except.ok.inj hr
      exact finish hf
    split at hr
    · simp at hr
    · obtain rfl := Except.ok.inj hr
      exact finish (s := { s with steps := s.steps + 1 }) hf
    · rename_i work new he
      obtain ⟨hwork, hnew⟩ := expands hs.1 he
      refine ih ?_ ?_ hr
      · intro w' hw'
        rcases List.mem_append.mp hw' with hw' | hw'
        · exact hwork w' hw'
        · exact hs.2 w' hw'
      · intro t ht
        rcases List.mem_append.mp ht with ht | ht
        · exact hnew t (by simpa using ht)
        · exact hf t ht

/-- **A search with backed work on its stack finds trails of backed work only**, however it ends.
By induction on the steps, with `backed_of_expand` for each. -/
theorem isBacked_of_run {p : Pattern} (wf : p.IsWellFormed) {o : Options} {res : Result}
    {budget : Nat} {s : State} (hs : ∀ w ∈ s.stack, ∃ ls rs, Backed p w ls rs)
    (hf : ∀ t ∈ s.found, IsBacked p t) (hr : run (contextOf p o) budget s = .ok res) :
    ∀ t ∈ res.trails, IsBacked p t := by
  refine forall_trails_of_run (fun hw he => ?_) hs hf hr
  obtain ⟨ls, rs, backed⟩ := hw
  exact backed_of_expand wf backed he

/-- **Soundness of trails.**  Whatever the bounds of a search and however it ends: for each of
its trails there are two runs of the pattern whose first consuming events the trail shows, entry
by entry, and the two sides of some entry differ. -/
theorem exists_runs_of_mem_trails {source : Bytes} {flags : Flags} {p : Pattern} {o : Options}
    {res : Result} {t : Trail} (parsed : Pattern.parse source flags = .ok p)
    (searched : outcome p o = .ok res) (mem : t ∈ res.trails) :
    (∃ ls rs l r, Run (step (Subject.ofPattern p)) (ofPattern p) ls l ∧
      Run (step (Subject.ofPattern p)) (ofPattern p) rs r ∧
      t.Shows p.flags (sightings 0 ls) (sightings 0 rs)) ∧
    ∃ e ∈ t.entries, e.left.same e.right = false := by
  have wf := Pattern.isWellFormed_of_parse parsed
  have initial : ∀ w ∈ (State.initial p).stack, ∃ ls rs, Backed p w ls rs := by
    intro w hw
    rw [List.mem_singleton.mp hw]
    exact ⟨[], [], backed_initial p⟩
  obtain ⟨w, ls, rs, backed, differ, rfl⟩ :=
    isBacked_of_run wf initial (by simp [State.initial]) searched t mem
  obtain ⟨es, left, hl, -⟩ := backed.left
  obtain ⟨fs, right, hr, -⟩ := backed.right
  exact ⟨⟨es, fs, _, _, left, right, hl ▸ hr ▸ backed.trail⟩, backed.equal differ⟩

/-- The pattern `(?:a|a)$` has a trail, and with it two runs, one for each alternative. -/
theorem exists_runs_of_equal_alternatives :
    ∃ p res t, Pattern.parse (Bytes.ofString "(?:a|a)$") {} = .ok p ∧
      outcome p {} = .ok res ∧ t ∈ res.trails ∧
      (∃ ls rs l r, Run (step (Subject.ofPattern p)) (ofPattern p) ls l ∧
        Run (step (Subject.ofPattern p)) (ofPattern p) rs r ∧
        t.Shows p.flags (sightings 0 ls) (sightings 0 rs)) ∧
      ∃ e ∈ t.entries, e.left.same e.right = false := by
  have found : (match Pattern.parse (Bytes.ofString "(?:a|a)$") {} with
      | .ok p =>
        match outcome p {} with
        | .ok res => res.trails.length == 1
        | .error _ => false
      | .error _ => false) = true := by decide +kernel
  split at found
  · rename_i p parsed
    split at found
    · rename_i res searched
      obtain ⟨t, ht⟩ := List.length_eq_one_iff.mp (beq_iff_eq.mp found)
      have mem : t ∈ res.trails := by simp [ht]
      exact ⟨p, res, t, parsed, searched, mem, exists_runs_of_mem_trails parsed searched mem⟩
    · simp at found
  · simp at found

end Search

end Backtrack
