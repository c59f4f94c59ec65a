/-
# Walks with their references resolved

The resolver follows a stream, records what capture groups match, and puts something in place
of every reference:

* nothing, if the group is still open, unknown, or inside a negative lookaround that does not
  enclose the reference;
* the recorded characters of the group, one by one, each with the reference added to `via`;
* if the group has no record although its body could have consumed, either nothing or, on a
  branch, another match of the body (a *rematch*).

A reference into another lookaround, or to a record of unbounded size, cannot be followed.

An empty reference that comes around again inside a quantifier, with nothing consumed since,
will do so forever; the walk is aborted there.

As for streams, a walk that takes no branch has less to do after every event that comes from
the tree (`Feed.weight_next_lt`); between two of those come only finitely many recorded
characters.
-/
import Backtrack.Derivation.Capture
import Backtrack.Derivation.Stream
import Backtrack.Pattern.Index

namespace Backtrack

/-! ## 1. What can go wrong -/

/-- Why a reference cannot be followed. -/
inductive UnsupportedReason where
  | intoLookaround
  | unbounded
deriving Repr, DecidableEq

/-- The wording of the reason. -/
def UnsupportedReason.text : UnsupportedReason → String
  | .intoLookaround => "into a lookaround"
  | .unbounded => "of unbounded size"

/-- A reference that cannot be followed. -/
structure Unsupported where
  reference : Reference
  reason : UnsupportedReason
deriving Repr, DecidableEq

/-- The wording of the error. -/
def Unsupported.message (u : Unsupported) : String :=
  "unsupported pattern: backreference to group " ++ toString u.reference.index ++ " at " ++
    toString u.reference.site.start ++ " " ++ u.reason.text ++ ", downgrade the pattern first"

/-! ## 2. Feeds -/

/-- Where events come from: a stream, or the walks of a group's body on behalf of a reference,
after which `rest` goes on. -/
inductive Feed where
  | plain (s : Stream)
  | rematch (s : Stream) (via : Reference) (rest : Feed)
deriving Repr

namespace Feed

/-- How much work is left to a walk that takes no branch. -/
def weight : Feed → Nat
  | plain s => s.weight
  | rematch s _ rest => s.weight + rest.weight + 1

/-- The next event and what follows it.  A body that ends the whole walk takes `rest` along. -/
def next (multiline : Bool) : Feed → Event Feed × Feed
  | plain s =>
    let r := s.next multiline
    (r.1.mapBranch plain, plain r.2)
  | rematch s via rest =>
    match s.next multiline with
    | (.done, _) => rest.next multiline
    | (.stop fs b, after) => (.stop fs b, plain after)
    | (.abort fs, after) => (.abort fs, plain after)
    | (.consume fs a older, after) => (.consume fs a (older ++ [via]), rematch after via rest)
    | (.split fs branch, after) => (.split fs (rematch branch via rest), rematch after via rest)
    | (.refer fs r, after) => (.refer fs r, rematch after via rest)
    | (.start fs, after) => (.start fs, rematch after via rest)
    | (.skip fs, after) => (.skip fs, rematch after via rest)

/-- An event that does not end the walk leaves less to do. -/
theorem weight_next_lt {multiline : Bool} {f : Feed}
    (h : (f.next multiline).1.isTerminal = false) : (f.next multiline).2.weight < f.weight := by
  induction f with
  | plain s =>
    simp only [next, Event.isTerminal_mapBranch] at h
    exact Stream.weight_next_lt h
  | rematch s via rest ih =>
    have hs := @Stream.weight_next_lt multiline s
    rw [next] at h ⊢
    split at h <;> rename_i hn <;> rw [hn] at hs <;>
      simp only [Event.isTerminal, Bool.true_eq_false, false_implies, forall_const, weight]
        at h hs ⊢
    · exact Nat.lt_trans (ih h) (by omega)
    all_goals omega

theorem lt_of_next {multiline : Bool} {f g : Feed} {e : Event Feed}
    (h : f.next multiline = (e, g)) (he : e.isTerminal = false) : g.weight < f.weight := by
  have := @weight_next_lt multiline f
  rw [h] at this
  exact this he

end Feed

/-! ## 3. Resolving one reference -/

/-- What the resolver knows of the pattern. -/
structure Subject where
  index : Index
  multiline : Bool
deriving Repr

/-- The pattern as the resolver sees it. -/
def Subject.ofPattern (p : Pattern) : Subject := ⟨Index.ofNode p.root, p.flags.multiline⟩

/-- What a reference stands for. -/
inductive Resolution where
  | nothing
  | rematch (body : Node)
  | replay (first : Replay) (rest : List Replay)
deriving Repr

/-- What a reference inside of some frames stands for. -/
def Subject.resolve (x : Subject) (cs : Captures) (fs : Frames) (r : Reference) :
    Except Unsupported Resolution :=
  if Frames.isOpen fs r.index then .ok .nothing
  else
    match x.index.group? r.index with
    | none => .ok .nothing
    | some (g, body) =>
      let outside := (x.index.lookarounds g.site.id).filter fun look =>
        !x.index.contains look.site.id r.site.id
      if outside.any (·.kind.isNegative) then .ok .nothing
      else if !outside.isEmpty then .error ⟨r, .intoLookaround⟩
      else
        let c := (cs.get? r.index).getD ⟨[], false, []⟩
        match c.entries.map fun e => (⟨e.atom, e.via ++ [r]⟩ : Replay) with
        | [] => .ok (if body.matchesEmpty && body.consumes then .rematch body else .nothing)
        | first :: rest =>
          if c.infinite then .error ⟨r, .unbounded⟩ else .ok (.replay first rest)

/-! ## 4. The resolver -/

/-- A position in the walks of a pattern with its references resolved. -/
structure Resolver where
  feed : Feed
  captures : Captures
  /-- Recorded characters that a reference still has to repeat, inside of these frames. -/
  pending : List Replay
  pendingFrames : Frames
  consumed : Nat
  /-- The last reference in a quantifier that stood for nothing, and what was consumed then. -/
  lastEmpty : Option (Reference × Nat)
deriving Repr

namespace Resolver

/-- At the start of a stream. -/
def ofStream (s : Stream) : Resolver := ⟨.plain s, [], [], [], 0, none⟩

/-- Nothing left to do. -/
def ended : Resolver := ofStream Stream.ended

/-- At the start of a pattern. -/
def ofPattern (p : Pattern) : Resolver := ofStream (Stream.ofNode p.root)

/-- Consumes one character and records it. -/
def consume (r : Resolver) (fs : Frames) (entry : Replay) : Event Resolver × Resolver :=
  (.consume fs entry.atom entry.via,
    { r with
      captures := (r.captures.invalidate fs).record fs entry
      consumed := r.consumed + 1 })

/-- The next event and what follows it. -/
def next (x : Subject) (r : Resolver) : Except Unsupported (Event Resolver × Resolver) :=
  match r.pending with
  | entry :: rest => .ok (consume { r with pending := rest } r.pendingFrames entry)
  | [] =>
    match _h : r.feed.next x.multiline with
    | (e, feed) =>
      let r' := { r with feed := feed, captures := r.captures.invalidate e.frames }
      match e with
      | .consume fs a via => .ok (r'.consume fs ⟨a, via⟩)
      | .split fs branch => .ok (.split fs { r' with feed := branch }, r')
      | .start fs => .ok (.start fs, r')
      | .stop fs b => .ok (.stop fs b, r')
      | .skip fs => .ok (.skip fs, r')
      | .abort fs => .ok (.abort fs, r')
      | .done => .ok (.done, r')
      | .refer fs ref =>
        let repeated := !(Frames.iterations fs).isEmpty
        let marked := { r' with
          lastEmpty := if repeated then some (ref, r.consumed) else r.lastEmpty }
        match x.resolve r'.captures fs ref with
        | .error u => .error u
        | .ok (.replay first rest) =>
          .ok (consume { r' with pending := rest, pendingFrames := fs } fs first)
        | .ok (.rematch body) =>
          if repeated && r.lastEmpty = some (ref, r.consumed) then .ok (.abort fs, ended)
          else
            let branch := { marked with feed := .rematch (Stream.ofBody body fs) ref feed }
            .ok (.split fs branch, marked)
        | .ok .nothing =>
          if repeated && r.lastEmpty = some (ref, r.consumed) then .ok (.abort fs, ended)
          else next x marked
termination_by r.feed.weight
decreasing_by
  exact Feed.lt_of_next _h rfl

/-! ## 5. The next event that matters -/

/-- Whether an event only lets the walk pass. -/
def passes : Event Resolver → Bool
  | .skip _ => true
  | .start _ => true
  | _ => false

/-- An event that only lets the walk pass leaves less to do. -/
theorem weight_next_lt {x : Subject} {r r' : Resolver} {e : Event Resolver}
    (h : r.next x = .ok (e, r')) (he : passes e = true) : r'.feed.weight < r.feed.weight := by
  fun_induction next x r
  all_goals try (obtain ⟨rfl, rfl⟩ := Prod.mk.inj (Except.ok.inj h))
  all_goals try (simp [passes] at he; done)
  all_goals try (simp at h; done)
  case case14 _ _ feed _ _ hn _ _ _ _ _ _ ih => exact Nat.lt_trans (ih h) (Feed.lt_of_next hn rfl)
  all_goals exact Feed.lt_of_next (by assumption) rfl

/-- The next event that does more than let the walk pass, what follows it, and the number of
times the start of the input has been required up to it. -/
def fetch (x : Subject) (starts : Nat) (r : Resolver) :
    Except Unsupported (Nat × Event Resolver × Resolver) :=
  match _h : r.next x with
  | .error u => .error u
  | .ok (.skip _, r') => fetch x starts r'
  | .ok (.start _, r') => fetch x (starts + 1) r'
  | .ok (e, r') => .ok (starts, e, r')
termination_by r.feed.weight
decreasing_by
  all_goals exact weight_next_lt _h rfl

/-- How many events `endsUnbounded` follows. -/
def unboundedLimit : Nat := 10000

/-- Follows a walk without taking a branch until it consumes or ends. -/
def endsUnboundedWithin (x : Subject) : Nat → Resolver → Bool
  | 0, _ => false
  | n + 1, r =>
    match r.next x with
    | .ok (.split _ _, r') => endsUnboundedWithin x n r'
    | .ok (.skip _, r') => endsUnboundedWithin x n r'
    | .ok (.start _, r') => endsUnboundedWithin x n r'
    | .ok (.stop _ bounded, _) => !bounded
    | _ => false

/-- Whether the walk can end right here, without anything that bounds the match. -/
def endsUnbounded (x : Subject) (r : Resolver) : Bool := endsUnboundedWithin x unboundedLimit r

end Resolver

end Backtrack
