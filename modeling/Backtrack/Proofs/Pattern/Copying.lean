/-
# Copies come to an end

A reference that is replaced is written as a copy of the body of its group.  The body is not below
the reference, and may hold references that are copied in turn, also such that lead back to the
first group.  `Revision.pieces` says what is written; here is the writer that does it from job to
job, and keeps account of where it is (`Writer`).

* What is left to do is a stack: `Writer.Job.leave` stands below the jobs of a copy and ends it.
* `expanding` are the groups whose bodies are being copied, and `suppressed` counts the copies.
  Both are changed when a copy begins and changed back when it ends.
* The tree is written twice.  The first time is for the new numbers of the groups alone
  (`Writer.Job.again`).

Which group a reference stands for is looked up in a table (`Downgrade.copyTable`), and the group in
the table is what counts as being copied; whether a reference may be copied is asked of its own
number.  That the two are the same (`Downgrade.index_of_find?`) is what the rest hangs on.

Each state of a run is tracked (`Writer.IsTracked`, preserved by every step): the copies that are
being written are those whose ends are on the stack, they are of different groups, and the two
accounts agree with them.  So there are never more of them than groups.  And each tree is done with
after finitely many steps, with the accounts as they were (`CopyTable.does_write`): by induction on
what can still be copied (`Revision.copying_induction`), and then on the tree.
-/
import Mathlib.Data.List.Perm.Subperm
import Backtrack.Proofs.Pattern.CopyTable

namespace Backtrack

/-! ## 1. The writer

The accounts are plain data beside the stack, and nothing in the definition keeps them in step
with it.  That they are in step is a statement about runs (section 5). -/

namespace Writer

/-- What is left to do. -/
inductive Job where
  | write (n : Node)
  | put (p : Piece)
  /-- The end of a copy. -/
  | leave (c : Copy)
  /-- The second time, with the new numbers known. -/
  | again (root : Node)

/-- The new numbers of groups: how many there are so far, and which are recorded. -/
structure Numbers where
  captures : Nat
  recorded : List (Nat × Nat)

/-- The next new number, which is recorded the first time only. -/
def Numbers.take (numbering : Bool) (x : Numbers) (index : Nat) : Numbers :=
  ⟨x.captures + 1, if numbering then (index, x.captures + 1) :: x.recorded else x.recorded⟩

/-- The number to refer to a group by. -/
def Numbers.of (x : Numbers) (index : Nat) : Nat := (x.recorded.lookup index).getD index

/-- The tokens with one more, kept apart from a numeric reference that it would extend. -/
def emit (ps : List Piece) (p : Piece) : List Piece :=
  match ps.getLast? with
  | some q =>
    if Revision.runsTogether q.token p.token then ps ++ Revision.emptyGroup ++ [p] else ps ++ [p]
  | none => [p]

end Writer

/-- Where the writer is. -/
structure Writer where
  jobs : List Writer.Job
  written : List Piece
  numbering : Bool
  numbers : Writer.Numbers
  expanding : List Nat
  suppressed : Nat

namespace Writer

/-- The writer before a tree. -/
def start (root : Node) : Writer := ⟨[.write root, .again root], [], true, ⟨0, []⟩, [], 0⟩

/-- Writes a token. -/
def put (s : Writer) (p : Piece) : Writer := { s with written := emit s.written p }

/-- Puts jobs before what is left to do. -/
def push (s : Writer) (jobs : List Job) : Writer := { s with jobs := jobs ++ s.jobs }

/-- Writes the opening of a group.  Inside a copy nothing captures. -/
def opening (s : Writer) (g : Group) : Writer :=
  if g.isCapture then
    if 0 < s.suppressed then s.put ⟨.opening .nonCapture [], false⟩
    else { s with numbers := s.numbers.take s.numbering g.index }.put ⟨.opening g.kind g.name, false⟩
  else s.put ⟨.opening g.kind g.name, false⟩

theorem jobs_opening (s : Writer) (g : Group) : (s.opening g).jobs = s.jobs := by
  unfold opening
  split
  · split <;> rfl
  · rfl

/-- Writes a reference that stays one. -/
def refer (s : Writer) (r : Reference) : Writer :=
  s.put ⟨if s.suppressed == 0 && !r.name.isEmpty then .reference r.index r.name
    else .reference (s.numbers.of r.index) [], false⟩

/-- Begins a copy. -/
def enter (s : Writer) (c : Copy) : Writer :=
  { s.put ⟨.opening .nonCapture [], c.atomic⟩ with
    jobs := .write c.body :: .leave c :: s.jobs
    expanding := c.group.index :: s.expanding
    suppressed := s.suppressed + 1 }

/-- Ends a copy. -/
def leave (s : Writer) (c : Copy) : Writer :=
  { s.put ⟨.closing, false⟩ with
    expanding := s.expanding.filter (· != c.group.index)
    suppressed := s.suppressed - 1 }

theorem filter_cons_self {i : Nat} {is : List Nat} (h : i ∉ is) :
    (i :: is).filter (· != i) = is := by
  rw [List.filter_cons_of_neg (by simp), List.filter_eq_self]
  intro j hj
  simpa using fun same : j = i => h (same ▸ hj)

/-- Begins with a tree. -/
def begin (t : CopyTable) (s : Writer) : Node → Writer
  | .atom a => s.put ⟨.leaf a.shape, false⟩
  | .anchor _ k => s.put ⟨.anchor k, false⟩
  | .reference r =>
    if s.expanding.contains r.index then Revision.emptyGroup.foldl put s
    else
      match t.find? r with
      | some c => s.enter c
      | none => s.refer r
  | .group g body =>
    if t.omitted.contains g.site.id then s
    else (s.opening g).push [.write body, .put ⟨.closing, false⟩]
  | .quantifier q body => s.push [.write body, .put ⟨.count q.count, false⟩]
  | .sequence _ ns => s.push (ns.map .write)
  | .alternation _ ns => s.push ((ns.map .write).intersperse (.put ⟨.bar, false⟩))

/-- Does the next job. -/
def step (t : CopyTable) (s : Writer) : Writer :=
  match s.jobs with
  | [] => s
  | .write n :: rest => begin t { s with jobs := rest } n
  | .put p :: rest => { s with jobs := rest }.put p
  | .leave c :: rest => { s with jobs := rest }.leave c
  | .again root :: rest =>
    { s with
      jobs := .write root :: rest
      written := []
      numbering := false
      numbers := ⟨0, s.numbers.recorded⟩ }

/-- The writer after some jobs. -/
def after (t : CopyTable) (root : Node) (k : Nat) : Writer := (step t)^[k] (start root)

/-- The copy that a job ends. -/
def Job.copy? : Job → Option Copy
  | .leave c => some c
  | _ => none

/-- The copies that are being written, innermost first. -/
def copies (s : Writer) : List Copy := s.jobs.filterMap Job.copy?

/-! ## 2. What is written

The writer puts separators in as it goes, token by token, and `Revision.separate` takes a whole
row.  The two agree, since a separator depends on two neighbours only. -/

theorem emit_append {ps : List Piece} (h : ps ≠ []) (qs : List Piece) (p : Piece) :
    emit (qs ++ ps) p = qs ++ emit ps p := by
  unfold emit
  rw [List.getLast?_append_of_ne_nil _ h]
  cases hq : ps.getLast? with
  | none => exact absurd (List.getLast?_eq_none_iff.mp hq) h
  | some q =>
    dsimp only
    split <;> simp only [List.append_assoc]

theorem separate_ne_nil (p : Piece) (ps : List Piece) : Revision.separate (p :: ps) ≠ [] := by
  cases ps with
  | nil => simp [Revision.separate]
  | cons q ps =>
    rw [Revision.separate]
    split <;> simp

theorem separate_concat (p : Piece) : ∀ ps : List Piece,
    Revision.separate (ps ++ [p]) = emit (Revision.separate ps) p
  | [] => rfl
  | [q] => by
    rw [List.singleton_append, Revision.separate, Revision.separate, Revision.separate]
    rfl
  | q :: r :: ps => by
    have ih := separate_concat p (r :: ps)
    rw [List.cons_append] at ih
    rw [List.cons_append, List.cons_append, Revision.separate, Revision.separate, ih]
    split
    · exact (emit_append (separate_ne_nil r ps) (q :: Revision.emptyGroup) p).symm
    · exact (emit_append (separate_ne_nil r ps) [q] p).symm

/-- Tokens that are emitted one after the other are those that are kept apart. -/
theorem foldl_emit (ps : List Piece) : ps.foldl emit [] = Revision.separate ps := by
  induction ps using List.reverseRecOn with
  | nil => rfl
  | append_singleton ps p ih => rw [List.foldl_concat, ih, separate_concat]

/-! ## 3. Runs

To put runs one after the other one has to know that the first part does not touch what comes
later.  So a run between two states keeps the bottom of the stack all the time. -/

/-- The writer gets from one state to another, and has more to do than `rest` all the time in
between. -/
inductive Gets (t : CopyTable) (rest : List Job) : Writer → Writer → Prop
  | refl (s : Writer) : Gets t rest s s
  | step {s s' : Writer} (job : Job) (above : List Job) (busy : s.jobs = job :: above ++ rest)
      (later : Gets t rest (step t s) s') : Gets t rest s s'

namespace Gets

variable {t : CopyTable} {rest : List Job} {s s' s'' : Writer}

theorem trans (h : Gets t rest s s') (h' : Gets t rest s' s'') : Gets t rest s s'' := by
  induction h with
  | refl => exact h'
  | step job above busy _ ih => exact .step job above busy (ih h')

theorem mono (more : List Job) (h : Gets t (more ++ rest) s s') : Gets t rest s s' := by
  induction h with
  | refl => exact .refl _
  | step job above busy _ ih => exact .step job (above ++ more) (by simp [busy]) ih

theorem single {job : Job} (h : s.jobs = job :: rest) : Gets t rest s (Writer.step t s) :=
  .step job [] h (.refl _)

/-- The number of steps, and what is left to do in between. -/
theorem exists_iterate (h : Gets t rest s s') : ∃ k, (Writer.step t)^[k] s = s' ∧
    ∀ j < k, ∃ job above, ((Writer.step t)^[j] s).jobs = job :: above ++ rest := by
  induction h with
  | refl => exact ⟨0, rfl, nofun⟩
  | step job above busy _ ih =>
    obtain ⟨k, last, between⟩ := ih
    refine ⟨k + 1, last, fun j hj => ?_⟩
    cases j with
    | zero => exact ⟨job, above, busy⟩
    | succ j => exact between j (Nat.lt_of_succ_lt_succ hj)

end Gets

/-! ## 4. What a tree leaves behind

Jobs are described by what they leave behind, whatever is to be done after them.  A copy of a body
inside of its own copy is cut short, so the induction is on the groups that may still be copied;
the tree is only the inner induction, since a body is not below the reference that it is copied
for. -/

/-- The groups that are numbered: none in a copy. -/
def numbered (copying groups : List Nat) : List Nat := if copying.isEmpty then groups else []

theorem numbered_nil (copying : List Nat) : numbered copying [] = [] := by
  unfold numbered
  split <;> rfl

theorem numbered_append (copying groups groups' : List Nat) :
    numbered copying (groups ++ groups') = numbered copying groups ++ numbered copying groups' := by
  unfold numbered
  split <;> rfl

/-- One state comes from another by writing: the accounts of copies are as they were, some groups
have been numbered, and the second time some tokens have been written. -/
structure Wrote (groups : List Nat) (pieces : List Nat → List Piece) (s s' : Writer) : Prop where
  numbering : s'.numbering = s.numbering
  expanding : s'.expanding = s.expanding
  suppressed : s'.suppressed = s.suppressed
  numbers : s'.numbers = groups.foldl (Numbers.take s.numbering) s.numbers
  written : s.numbering = false → ∀ kept, (∀ i, s.numbers.of i = Revision.renumber kept i) →
    s'.written = (pieces kept).foldl emit s.written

theorem recorded_foldl_take (groups : List Nat) (x : Numbers) :
    (groups.foldl (Numbers.take false) x).recorded = x.recorded := by
  induction groups generalizing x with
  | nil => rfl
  | cons _ _ ih => exact ih _

namespace Wrote

variable {groups groups' : List Nat} {pieces pieces' : List Nat → List Piece} {s s' s'' : Writer}

/-- The first time is for the numbers, so the second time does not change what is recorded. -/
theorem of_eq (h : Wrote groups pieces s s') (second : s.numbering = false) (i : Nat) :
    s'.numbers.of i = s.numbers.of i := by
  rw [Numbers.of, h.numbers, second, recorded_foldl_take, Numbers.of]

theorem trans (h : Wrote groups pieces s s') (h' : Wrote groups' pieces' s' s'') :
    Wrote (groups ++ groups') (fun kept => pieces kept ++ pieces' kept) s s'' where
  numbering := h'.numbering.trans h.numbering
  expanding := h'.expanding.trans h.expanding
  suppressed := h'.suppressed.trans h.suppressed
  numbers := by rw [h'.numbers, h.numbers, h.numbering, List.foldl_append]
  written second kept known := by
    rw [h'.written (h.numbering.trans second) kept fun i => (h.of_eq second i).trans (known i),
      h.written second kept known, List.foldl_append]

theorem nothing {jobs : List Job} (s : Writer) :
    Wrote [] (fun _ => []) s { s with jobs := jobs } :=
  ⟨rfl, rfl, rfl, rfl, fun _ _ _ => rfl⟩

theorem put (s : Writer) (p : Piece) : Wrote [] (fun _ => [p]) s (s.put p) :=
  ⟨rfl, rfl, rfl, rfl, fun _ _ _ => rfl⟩

end Wrote

end Writer

namespace CopyTable

open Writer

/-- No reference stands for a group with another number. -/
def IsSound (t : CopyTable) : Prop :=
  ∀ r c, t.find? r = some c → c.group.index = r.index

/-- Whatever is to be done after them, the jobs come to an end while the groups in `copying` are
being copied. -/
def Does (t : CopyTable) (copying : List Nat) (jobs : List Job) (groups : List Nat)
    (pieces : List Nat → List Piece) : Prop :=
  ∀ s rest, s.jobs = jobs ++ rest → s.expanding = copying → s.suppressed = copying.length →
    ∃ s', Gets t rest s s' ∧ s'.jobs = rest ∧ Wrote groups pieces s s'

variable {t : CopyTable} {copying : List Nat} {jobs jobs' : List Job} {groups groups' : List Nat}
  {pieces pieces' : List Nat → List Piece}

theorem Does.nil : t.Does copying [] [] fun _ => [] :=
  fun s _ left _ _ => ⟨s, .refl s, left, .nothing s⟩

theorem Does.append (h : t.Does copying jobs groups pieces)
    (h' : t.Does copying jobs' groups' pieces') :
    t.Does copying (jobs ++ jobs') (groups ++ groups') fun kept => pieces kept ++ pieces' kept := by
  intro s rest left expanding suppressed
  obtain ⟨s₁, gets, left₁, wrote⟩ := h s (jobs' ++ rest) (by rw [left, List.append_assoc])
    expanding suppressed
  obtain ⟨s₂, gets', left₂, wrote'⟩ := h' s₁ rest left₁ (wrote.expanding.trans expanding)
    (wrote.suppressed.trans suppressed)
  exact ⟨s₂, (gets.mono jobs').trans gets', left₂, wrote.trans wrote'⟩

theorem Does.put (p : Piece) : t.Does copying [.put p] [] fun _ => [p] := by
  intro s rest left _ _
  refine ⟨_, .single left, ?_, ?_⟩
  · simp only [Writer.step, left, List.singleton_append, Writer.put]
  · simp only [Writer.step, left, List.singleton_append]
    exact (Wrote.nothing s).trans (.put _ p)

theorem Does.concat_put (h : t.Does copying jobs groups pieces) (p : Piece) :
    t.Does copying (jobs ++ [.put p]) groups fun kept => pieces kept ++ [p] := by
  have all := h.append (.put p)
  simpa only [List.append_nil] using all

/-- Begins with a tree by writing something, and leaves the rest to jobs of their own. -/
theorem Does.begin {n : Node} {pieces₀ : List Nat → List Piece} {groups₀ : List Nat}
    (begins : ∀ s, s.expanding = copying → s.suppressed = copying.length →
      ∃ s', Writer.begin t s n = s'.push jobs ∧ s'.jobs = s.jobs ∧ Wrote groups₀ pieces₀ s s')
    (h : t.Does copying jobs groups pieces) :
    t.Does copying [.write n] (groups₀ ++ groups) fun kept => pieces₀ kept ++ pieces kept := by
  intro s rest left expanding suppressed
  obtain ⟨s₁, begun, left₁, wrote₁⟩ := begins { s with jobs := rest } expanding suppressed
  have step : Writer.step t s = s₁.push jobs := by
    rw [← begun, Writer.step, left]
    rfl
  have wrote₀ : Wrote groups₀ pieces₀ s (s₁.push jobs) :=
    ⟨wrote₁.numbering, wrote₁.expanding, wrote₁.suppressed, wrote₁.numbers, wrote₁.written⟩
  obtain ⟨s₂, gets, left₂, wrote₂⟩ := h (s₁.push jobs) rest (by rw [push, left₁])
    (wrote₀.expanding.trans expanding) (wrote₀.suppressed.trans suppressed)
  exact ⟨s₂, (step ▸ Gets.single left).trans gets, left₂, wrote₀.trans wrote₂⟩

/-- Leaves everything to jobs of their own. -/
theorem Does.push {n : Node} (begins : ∀ s, Writer.begin t s n = s.push jobs)
    (h : t.Does copying jobs groups pieces) : t.Does copying [.write n] groups pieces := by
  have all : t.Does copying [.write n] ([] ++ groups) fun kept => [] ++ pieces kept :=
    .begin (fun s _ _ => ⟨s, begins s, rfl, .nothing s⟩) h
  exact all

/-- Writes something at once. -/
theorem Does.once {n : Node} (begins : ∀ s, s.expanding = copying → s.suppressed = copying.length →
      (Writer.begin t s n).jobs = s.jobs ∧ Wrote groups pieces s (Writer.begin t s n)) :
    t.Does copying [.write n] groups pieces := by
  have all : t.Does copying [.write n] (groups ++ []) fun kept => pieces kept ++ [] :=
    .begin (fun s expanding suppressed => ⟨_, rfl, begins s expanding suppressed⟩) .nil
  simpa only [List.append_nil] using all

theorem Does.leaf {n : Node} {p : Piece} (begins : ∀ s, Writer.begin t s n = s.put p) :
    t.Does copying [.write n] [] fun _ => [p] :=
  .once fun s _ _ => begins s ▸ ⟨rfl, .put s p⟩

theorem wrote_opening (g : Group) {s : Writer} (suppressed : s.suppressed = copying.length) :
    Wrote (numbered copying (if g.isCapture then [g.index] else []))
      (fun _ => [⟨Revision.openingToken copying g, false⟩]) s (s.opening g) := by
  unfold Writer.opening Revision.openingToken
  cases g.isCapture with
  | false =>
    rw [if_neg Bool.false_ne_true, if_neg Bool.false_ne_true, numbered_nil]
    exact .put s _
  | true =>
    cases copying with
    | nil =>
      have outside : ¬0 < s.suppressed := by simp [suppressed]
      simp only [outside, ↓reduceIte]
      exact ⟨rfl, rfl, rfl, rfl, fun _ _ _ => rfl⟩
    | cons _ _ =>
      have inside : 0 < s.suppressed := by simp [suppressed]
      simp only [inside, ↓reduceIte]
      exact .put s _

theorem wrote_refer (r : Reference) {s : Writer} (suppressed : s.suppressed = copying.length) :
    Wrote [] (fun kept => [⟨Revision.referenceToken kept copying r, false⟩]) s (s.refer r) := by
  refine ⟨rfl, rfl, rfl, rfl, fun _ kept known => ?_⟩
  have outside : (s.suppressed == 0) = copying.isEmpty := by
    rw [suppressed]
    cases copying <;> rfl
  rw [Writer.refer, outside, known]
  rfl

/-- **A copy begins and ends**, and leaves the accounts as they were.  Between its two jobs the
body is written while one more group is being copied, and this is where the hypothesis of the
induction is used. -/
theorem Does.copy {r : Reference} {c : Copy} (sound : t.IsSound) (hc : r.index ∉ copying)
    (found : t.find? r = some c) (h : t.Does (r.index :: copying) [.write c.body] [] pieces) :
    t.Does copying [.write (.reference r)] [] fun kept =>
      ⟨.opening .nonCapture [], c.atomic⟩ :: (pieces kept ++ [⟨.closing, false⟩]) := by
  intro s rest left expanding suppressed
  have index := sound r c found
  have fresh : s.expanding.contains r.index = false := by simpa [expanding] using hc
  -- It begins, and the reference counts as being copied.
  let s₁ : Writer := { s with jobs := rest }.enter c
  have begun : Writer.step t s = s₁ := by
    rw [Writer.step, left]
    simp only [List.singleton_append, Writer.begin, fresh, found]
    rfl
  obtain ⟨s₂, gets, left₂, wrote⟩ := h s₁ (.leave c :: rest) rfl
    (by rw [← expanding, ← index]; rfl) (by rw [List.length_cons, ← suppressed]; rfl)
  -- It ends, and the group is taken off again.
  have ended : Writer.step t s₂ = { s₂ with jobs := rest }.leave c := by rw [Writer.step, left₂]
  have restored : s₂.expanding.filter (· != c.group.index) = s.expanding := by
    rw [wrote.expanding]
    exact filter_cons_self (index ▸ expanding ▸ hc)
  refine ⟨_, (begun ▸ Gets.single left).trans ((gets.mono [.leave c]).trans (.single left₂)), ?_, ?_⟩
  · rw [ended]
    rfl
  · rw [ended]
    exact
      { numbering := wrote.numbering
        expanding := restored
        suppressed := by
          change s₂.suppressed - 1 = s.suppressed
          rw [wrote.suppressed]
          rfl
        numbers := wrote.numbers
        written := fun second kept known => by
          change emit s₂.written _ = _
          rw [wrote.written second kept known, List.foldl_cons, List.foldl_concat]
          rfl }

/-- Whether trees are written while some groups are being copied. -/
def Writes (t : CopyTable) (copying : List Nat) : Prop :=
  ∀ n, t.Does copying [.write n] (numbered copying (t.revision.kept n)) fun kept =>
    t.revision.pieces kept copying n

mutual

theorem does_write (sound : t.IsSound) (ih : t.revision.Copies copying t.Writes) : ∀ n : Node,
    t.Does copying [.write n] (numbered copying (t.revision.kept n)) fun kept =>
      t.revision.pieces kept copying n
  | .atom a => by
    simp only [Revision.kept, Revision.pieces, numbered_nil]
    exact .leaf fun _ => rfl
  | .anchor _ k => by
    simp only [Revision.kept, Revision.pieces, numbered_nil]
    exact .leaf fun _ => rfl
  | .reference r => by
    rw [Revision.kept, numbered_nil]
    by_cases hc : r.index ∈ copying
    · simp only [Revision.pieces_copied (List.contains_iff_mem.mpr hc)]
      refine .once fun s expanding _ => ?_
      rw [Writer.begin, expanding, if_pos (List.contains_iff_mem.mpr hc)]
      exact ⟨rfl, (Wrote.put s _).trans (.put _ _)⟩
    · have hc' : ¬copying.contains r.index = true := by simpa using hc
      cases found : t.find? r with
      | some c =>
        have hs : t.revision.find? r = some c.substitution := by rw [find?_revision, found]; rfl
        simp only [Revision.pieces_copy hc' hs]
        exact .copy sound hc found (ih r _ hc' hs c.body)
      | none =>
        have hs : t.revision.find? r = none := by rw [find?_revision, found]; rfl
        simp only [Revision.pieces_kept hc' hs]
        refine .once fun s expanding suppressed => ?_
        rw [Writer.begin, expanding, if_neg hc', found]
        exact ⟨rfl, wrote_refer r suppressed⟩
  | .group g body => by
    simp only [Revision.kept, Revision.pieces]
    by_cases ho : t.omitted.contains g.site.id = true
    · have ho' : t.revision.omitted.contains g.site.id = true := ho
      simp only [if_pos ho', numbered_nil]
      refine .once fun s _ _ => ?_
      rw [Writer.begin, if_pos ho]
      exact ⟨rfl, .nothing s⟩
    · have ho' : ¬t.revision.omitted.contains g.site.id = true := ho
      have groups : numbered copying (if g.isCapture then g.index :: t.revision.kept body
            else t.revision.kept body) =
          numbered copying (if g.isCapture then [g.index] else []) ++
            numbered copying (t.revision.kept body) := by
        rw [← numbered_append]
        split <;> rfl
      simp only [if_neg ho', groups]
      refine .begin (fun s _ suppressed => ⟨s.opening g, ?_, ?_, wrote_opening g suppressed⟩)
        ((does_write sound ih body).concat_put ⟨.closing, false⟩)
      · rw [Writer.begin, if_neg ho]
        rfl
      · exact jobs_opening s g
  | .quantifier q body => by
    simp only [Revision.kept, Revision.pieces]
    exact .push (fun _ => rfl) ((does_write sound ih body).concat_put ⟨.count q.count, false⟩)
  | .sequence _ ns => by
    simp only [Revision.kept, Revision.pieces]
    exact .push (fun _ => rfl) (does_writeAll sound ih ns)
  | .alternation _ ns => by
    simp only [Revision.kept, Revision.pieces]
    exact .push (fun _ => rfl) (does_writeBetween sound ih ns)

theorem does_writeAll (sound : t.IsSound) (ih : t.revision.Copies copying t.Writes) :
    ∀ ns : List Node,
    t.Does copying (ns.map .write) (numbered copying (t.revision.keptAll ns)) fun kept =>
      t.revision.piecesAll kept copying ns
  | [] => by
    simp only [Revision.keptAll, Revision.piecesAll, numbered_nil]
    exact .nil
  | n :: ns => by
    simp only [Revision.keptAll, Revision.piecesAll, numbered_append]
    exact (does_write sound ih n).append (does_writeAll sound ih ns)

theorem does_writeBetween (sound : t.IsSound) (ih : t.revision.Copies copying t.Writes) :
    ∀ ns : List Node,
    t.Does copying ((ns.map .write).intersperse (.put ⟨.bar, false⟩))
      (numbered copying (t.revision.keptAll ns)) fun kept =>
      t.revision.piecesBetween kept copying ns
  | [] => by
    simp only [Revision.keptAll, Revision.piecesBetween, numbered_nil]
    exact .nil
  | [n] => by
    simp only [Revision.keptAll, Revision.piecesBetween, List.append_nil]
    exact does_write sound ih n
  | n :: m :: ns => by
    have later := (Does.put ⟨.bar, false⟩).append (does_writeBetween sound ih (m :: ns))
    have all := (does_write sound ih n).append later
    simp only [Revision.keptAll, Revision.piecesBetween, numbered_append] at all ⊢
    exact all

end

/-- **A tree is written to its end**, whichever groups are being copied.  By induction on the
groups that can still be copied, with `does_write` for each of them. -/
theorem writes (sound : t.IsSound) (copying : List Nat) : t.Writes copying :=
  t.revision.copying_induction (fun _ ih n => does_write sound ih n) copying

end CopyTable

namespace Writer

variable {t : CopyTable} {root : Node}

/-! ## 5. Which copies are being written

The accounts are compared with the stack in every state, not only at the ends of trees.  A job
changes the stack and the accounts together, or neither of them, and only the two that begin and
end a copy change both. -/

/-- The writer is in copies of different groups, and its accounts say so. -/
structure IsTracked (t : CopyTable) (s : Writer) : Prop where
  listed : ∀ c ∈ s.copies, c ∈ t.copies
  distinct : (s.copies.map (·.group.index)).Nodup
  expanding : s.expanding = s.copies.map (·.group.index)
  suppressed : s.suppressed = s.copies.length

/-- Only copies that begin or end change which copies are being written. -/
theorem IsTracked.of_same {s s' : Writer} (h : IsTracked t s) (copies : s'.copies = s.copies)
    (expanding : s'.expanding = s.expanding) (suppressed : s'.suppressed = s.suppressed) :
    IsTracked t s' := by
  constructor
  · rw [copies]
    exact h.listed
  · rw [copies]
    exact h.distinct
  · rw [copies, expanding, h.expanding]
  · rw [copies, suppressed, h.suppressed]

theorem copies_push {jobs : List Job} (h : ∀ j ∈ jobs, j.copy? = none) (s : Writer) :
    (s.push jobs).copies = s.copies := by
  rw [copies, push, List.filterMap_append, List.filterMap_eq_nil_iff.mpr h, List.nil_append, copies]

theorem IsTracked.push {jobs : List Job} (h : ∀ j ∈ jobs, j.copy? = none) {s : Writer}
    (tracked : IsTracked t s) : IsTracked t (s.push jobs) :=
  tracked.of_same (copies_push h s) rfl rfl

theorem copy?_alternatives : ∀ ns : List Node,
    ∀ j ∈ (ns.map Job.write).intersperse (.put ⟨.bar, false⟩), j.copy? = none
  | [] => nofun
  | [n] => by simp [Job.copy?]
  | n :: m :: ns => by
    have ih := copy?_alternatives (m :: ns)
    rw [List.map_cons] at ih
    rw [List.map_cons, List.map_cons, List.intersperse_cons_cons]
    exact List.forall_mem_cons.mpr ⟨rfl, List.forall_mem_cons.mpr ⟨rfl, ih⟩⟩

theorem IsTracked.opening {s : Writer} (h : IsTracked t s) (g : Group) :
    IsTracked t (s.opening g) := by
  unfold Writer.opening
  split
  · split
    · exact h.of_same rfl rfl rfl
    · exact h.of_same rfl rfl rfl
  · exact h.of_same rfl rfl rfl

theorem IsTracked.enter {s : Writer} (h : IsTracked t s) {c : Copy} (hc : c ∈ t.copies)
    (fresh : c.group.index ∉ s.expanding) : IsTracked t (s.enter c) := by
  have copies : (s.enter c).copies = c :: s.copies := rfl
  constructor
  · rw [copies]
    exact List.forall_mem_cons.mpr ⟨hc, h.listed⟩
  · rw [copies, List.map_cons, List.nodup_cons, ← h.expanding]
    exact ⟨fresh, h.expanding ▸ h.distinct⟩
  · rw [copies, List.map_cons, ← h.expanding]
    rfl
  · rw [copies, List.length_cons, ← h.suppressed]
    rfl

/-- The innermost copy ends. -/
theorem IsTracked.leave {s : Writer} {c : Copy} {rest : List Job} (h : IsTracked t s)
    (left : s.jobs = .leave c :: rest) : IsTracked t ({ s with jobs := rest }.leave c) := by
  have inner : s.copies = c :: ({ s with jobs := rest }.leave c).copies := by
    rw [copies, left]
    rfl
  obtain ⟨listed, distinct, expanding, suppressed⟩ := h
  rw [inner] at listed distinct expanding suppressed
  rw [List.map_cons, List.nodup_cons] at distinct
  constructor
  · exact fun c hc => listed c (List.mem_cons_of_mem _ hc)
  · exact distinct.2
  · change s.expanding.filter _ = _
    rw [expanding]
    exact filter_cons_self distinct.1
  · change s.suppressed - 1 = _
    rw [suppressed]
    rfl

theorem IsTracked.begin (sound : t.IsSound) {s : Writer} (h : IsTracked t s) :
    ∀ n : Node, IsTracked t (begin t s n)
  | .atom _ => h.of_same rfl rfl rfl
  | .anchor _ _ => h.of_same rfl rfl rfl
  | .reference r => by
    rw [Writer.begin]
    split
    · exact h.of_same rfl rfl rfl
    · rename_i hc
      split
      · rename_i c found
        refine h.enter (List.mem_of_find?_eq_some found) ?_
        rw [sound r c found]
        simpa using hc
      · exact h.of_same rfl rfl rfl
  | .group g body => by
    rw [Writer.begin]
    split
    · exact h
    · exact (h.opening g).push (by simp [Job.copy?])
  | .quantifier q body => h.push (by simp [Job.copy?])
  | .sequence _ ns => h.push (by simp [Job.copy?])
  | .alternation _ ns => h.push (copy?_alternatives ns)

theorem IsTracked.pop {s : Writer} (h : IsTracked t s) {j : Job} {rest : List Job}
    (left : s.jobs = j :: rest) (hj : j.copy? = none) : IsTracked t { s with jobs := rest } := by
  refine h.of_same ?_ rfl rfl
  rw [copies, copies, left, List.filterMap_cons_none hj]

/-- **The accounts are right after a job if they were before it.**  Jobs that begin or end no copy
change neither the copies on the stack nor the accounts. -/
theorem IsTracked.step (sound : t.IsSound) {s : Writer} (h : IsTracked t s) :
    IsTracked t (step t s) := by
  unfold Writer.step
  split
  · exact h
  · rename_i n rest left
    exact (h.pop left rfl).begin sound n
  · rename_i p rest left
    exact (h.pop left rfl).of_same rfl rfl rfl
  · rename_i c rest left
    exact h.leave left
  · rename_i root rest left
    exact (h.pop left rfl).of_same rfl rfl rfl

theorem isTracked_start (root : Node) : IsTracked t (start root) :=
  ⟨nofun, .nil, rfl, rfl⟩

/-- Whenever one looks, the accounts are right. -/
theorem isTracked_after (sound : t.IsSound) (root : Node) (k : Nat) :
    IsTracked t (after t root k) := by
  induction k with
  | zero => exact isTracked_start root
  | succ k ih =>
    rw [after, Function.iterate_succ_apply']
    exact ih.step sound

/-! ## 6. Both times

The first time writes numbers and the second time tokens.  The numbers do not depend on
themselves: a group gets the next one whether or not it is recorded. -/

theorem renumber_concat {is : List Nat} {j : Nat} (h : j ∉ is) (i : Nat) :
    Revision.renumber (is ++ [j]) i = if i = j then is.length + 1 else Revision.renumber is i := by
  unfold Revision.renumber
  rw [List.idxOf?, List.findIdx?_append]
  split_ifs with hi
  · subst hi
    have absent : is.findIdx? (· == i) = none := by
      rw [List.findIdx?_eq_none_iff]
      exact fun x hx => by simpa using fun same : x = i => h (same ▸ hx)
    simp [absent]
  · cases is.findIdx? (· == i) <;> simp [Ne.symm hi]

theorem captures_foldl_take (numbering : Bool) (groups : List Nat) (x : Numbers) :
    (groups.foldl (Numbers.take numbering) x).captures = x.captures + groups.length := by
  induction groups generalizing x with
  | nil => rfl
  | cons _ _ ih =>
    rw [List.foldl_cons, ih, List.length_cons, Numbers.take]
    exact Nat.succ_add_eq_add_succ _ _

/-- The numbers that are recorded the first time are the places among the groups that remain. -/
theorem of_foldl_take {kept : List Nat} (h : kept.Nodup) (i : Nat) :
    (kept.foldl (Numbers.take true) ⟨0, []⟩).of i = Revision.renumber kept i := by
  induction kept using List.reverseRecOn with
  | nil => rfl
  | append_singleton is j ih =>
    obtain ⟨nodup, -, apart⟩ := List.nodup_append.mp h
    have fresh : j ∉ is := fun hj => apart j hj j (List.mem_singleton_self j) rfl
    have captures := captures_foldl_take true is ⟨0, []⟩
    rw [renumber_concat fresh, List.foldl_concat, Numbers.of, Numbers.take, if_pos rfl, captures,
      List.lookup_cons, ← ih nodup, Numbers.of]
    split_ifs with hi
    · simp [hi]
    · rw [beq_eq_false_iff_ne.mpr hi]

theorem after_add (t : CopyTable) (root : Node) (k d : Nat) :
    after t root (k + d) = (step t)^[d] (after t root k) := by
  rw [after, Nat.add_comm, Function.iterate_add_apply, after]

/-- **Writing a tree comes to an end.**  What has been written then is the tree under the
revision.  The two passes are put one behind the other, the second one with the numbers of the
first. -/
theorem exists_after (sound : t.IsSound) (root : Node) (kept : (t.revision.kept root).Nodup) :
    ∃ k, (after t root k).jobs = [] ∧ (after t root k).written = t.revision.written root := by
  obtain ⟨s₁, gets₁, left₁, first⟩ := t.writes sound [] root (start root) [.again root] rfl rfl rfl
  have again : step t s₁ = { s₁ with
      jobs := [.write root]
      written := []
      numbering := false
      numbers := ⟨0, s₁.numbers.recorded⟩ } := by rw [step, left₁]
  obtain ⟨s₂, gets₂, left₂, second⟩ := t.writes sound [] root (step t s₁) []
    (by rw [again]; rfl) (by rw [again]; exact first.expanding)
    (by rw [again]; exact first.suppressed)
  -- What has been recorded the first time is what the second time refers to.
  have known : ∀ i, (step t s₁).numbers.of i = Revision.renumber (t.revision.kept root) i := by
    intro i
    rw [← of_foldl_take kept, again, Numbers.of, first.numbers]
    rfl
  have written := second.written (by rw [again]) _ known
  obtain ⟨k, rfl, -⟩ :=
    ((gets₁.mono [.again root]).trans ((Gets.single left₁).trans gets₂)).exists_iterate
  refine ⟨k, left₂, ?_⟩
  rw [after, written, again]
  exact foldl_emit _

/-- **A tree is done with**, and the accounts are as they were. -/
theorem exists_after_write (sound : t.IsSound) (root : Node) {k : Nat} {n : Node}
    {rest : List Job} (left : (after t root k).jobs = .write n :: rest) :
    ∃ d, (after t root (k + d)).jobs = rest ∧
      (after t root (k + d)).expanding = (after t root k).expanding ∧
      (after t root (k + d)).suppressed = (after t root k).suppressed ∧
      ∀ i < d, ∃ j above, (after t root (k + i)).jobs = j :: above ++ rest := by
  have tracked := isTracked_after sound root k
  have suppressed : (after t root k).suppressed = (after t root k).expanding.length := by
    rw [tracked.suppressed, tracked.expanding, List.length_map]
  obtain ⟨s', gets, left', wrote⟩ := t.writes sound _ n (after t root k) rest left rfl suppressed
  obtain ⟨d, last, between⟩ := gets.exists_iterate
  refine ⟨d, ?_⟩
  simp only [after_add, last]
  exact ⟨left', wrote.expanding, wrote.suppressed, between⟩

end Writer

namespace Downgrade

open Writer (after)

/-- Writing a tree with the copies that its references are replaced by comes to an end. -/
structure Expands (root : Node) (captures : Nat) : Prop where
  /-- After finitely many jobs there is nothing left to do, and the revised tree is written. -/
  ends : ∃ k, (after (copyTable root) root k).jobs = [] ∧
    (after (copyTable root) root k).written = (revisionOf root).written root
  /-- Copies nest at most as deep as there are groups. -/
  nests : ∀ k, (after (copyTable root) root k).copies.length ≤ captures
  /-- No body is copied inside of a copy of itself. -/
  apart : ∀ k, ((after (copyTable root) root k).copies.map (·.group.index)).Nodup ∧
    ((after (copyTable root) root k).copies.map (·.body.id)).Nodup
  /-- The accounts are those of the copies that are being written. -/
  accounts : ∀ k, (after (copyTable root) root k).expanding =
      (after (copyTable root) root k).copies.map (·.group.index) ∧
    (after (copyTable root) root k).suppressed = (after (copyTable root) root k).copies.length
  /-- Whenever a tree is begun with, what comes after it is reached, not before the tree is done
  with, and the accounts are then as they were. -/
  returns : ∀ k n rest, (after (copyTable root) root k).jobs = .write n :: rest →
    ∃ d, (after (copyTable root) root (k + d)).jobs = rest ∧
      (after (copyTable root) root (k + d)).expanding =
        (after (copyTable root) root k).expanding ∧
      (after (copyTable root) root (k + d)).suppressed =
        (after (copyTable root) root k).suppressed ∧
      ∀ i < d, ∃ j above, (after (copyTable root) root (k + i)).jobs = j :: above ++ rest

end Downgrade

namespace Pattern

open Downgrade

/-- **Copies come to an end**, in whatever way groups refer to each other. -/
theorem expands_of_parse {source : Bytes} {flags : Flags} {p : Pattern}
    (h : parse source flags = .ok p) : Expands p.root p.captures := by
  have sound : (copyTable p.root).IsSound := fun _ _ => index_of_find?
  have wellFormed := isWellFormed_of_parse h
  have tracked := Writer.isTracked_after sound p.root
  have copied : ∀ k, ∀ c ∈ (Writer.after (copyTable p.root) p.root k).copies,
      IsCopyOf p.root c.reference c := fun k c hc => isCopyOf_of_mem ((tracked k).listed c hc)
  constructor
  · rw [← revision_copyTable]
    exact Writer.exists_after sound p.root
      ((Revision.kept_sublist p.root).nodup wellFormed.captures)
  · intro k
    have groups : (Writer.after (copyTable p.root) p.root k).copies.map (·.group.index) ⊆
        captureIndexes p.root.walk := by
      intro i hi
      obtain ⟨c, hc, rfl⟩ := List.mem_map.mp hi
      exact mem_captureIndexes.mpr ⟨_, _, (copied k c hc).mem, (copied k c hc).captures, rfl⟩
    have length := (List.subperm_of_subset (tracked k).distinct groups).length_le
    rw [captureIndexes_eq_map, List.length_map, List.length_map] at length
    exact length.trans_eq (numbered_of_parse h).2.1
  · intro k
    refine ⟨(tracked k).distinct, ?_⟩
    refine List.Nodup.map_on (fun c hc d hd same => ?_) (tracked k).distinct.of_map
    refine List.inj_on_of_nodup_map (tracked k).distinct hc hd ?_
    rw [(copied k c hc).group_eq wellFormed.distinct (copied k d hd) same]
  · exact fun k => ⟨(tracked k).expanding, (tracked k).suppressed⟩
  · exact fun _ _ _ => Writer.exists_after_write sound p.root

/-- In `(?=(a\2))(?=(b\1))\1\2` the groups refer to each other.  The copy of the second one in the
first one holds a copy of the first one, and there it ends. -/
theorem expands_of_cycle : ∃ p, parse (Bytes.ofString "(?=(a\\2))(?=(b\\1))\\1\\2") {} = .ok p ∧
    p.captures = 2 ∧
    (Writer.after (copyTable p.root) p.root 9).copies.map (·.group.index) = [1, 2] ∧
    Expands p.root 2 := by
  let first : Node := .group ⟨⟨4, 3, 8⟩, .capture, 1, []⟩
    (.sequence ⟨3, 4, 7⟩ [.atom ⟨⟨1, 4, 5⟩, .char 97⟩, .reference ⟨⟨2, 5, 7⟩, 2, []⟩])
  let second : Node := .group ⟨⟨9, 12, 17⟩, .capture, 2, []⟩
    (.sequence ⟨8, 13, 16⟩ [.atom ⟨⟨6, 13, 14⟩, .char 98⟩, .reference ⟨⟨7, 14, 16⟩, 1, []⟩])
  let p : Pattern :=
    { source := Bytes.ofString "(?=(a\\2))(?=(b\\1))\\1\\2"
      flags := {}
      root := .sequence ⟨13, 0, 22⟩
        [.group ⟨⟨5, 0, 9⟩, .lookahead, 0, []⟩ first, .group ⟨⟨10, 9, 18⟩, .lookahead, 0, []⟩ second,
          .reference ⟨⟨11, 18, 20⟩, 1, []⟩, .reference ⟨⟨12, 20, 22⟩, 2, []⟩]
      captures := 2 }
  have parsed : parse (Bytes.ofString "(?=(a\\2))(?=(b\\1))\\1\\2") {} = .ok p := by
    with_unfolding_all rfl
  exact ⟨p, parsed, rfl, by decide +kernel, expands_of_parse parsed⟩

end Pattern

end Backtrack
