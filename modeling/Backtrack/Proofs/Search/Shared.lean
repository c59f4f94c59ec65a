/-
# What the two sides of a trail share

The search goes on with two leaves unless what they share is seen to be empty, and two trails are
incompatible where what they are about is seen to have nothing in common.  Here this is put in
terms of characters (`isEmpty_intersect_of_parse`).

Being seen to be empty is as good as being empty unless a leaf meets a leaf with the very same
requirement, and nothing satisfies it.  `follows_nothing` has a trail that no input can drive.
-/
import Backtrack.Proofs.Emptiness
import Backtrack.Proofs.Search.Soundness
import Backtrack.Report.Score

namespace Backtrack

/-! ## 1. Entries

An entry of a trail is about an intersection, and two of those are intersected again when trails
are compared.  Whether that is seen to be empty depends on the form of both. -/

/-- The entry is about what two leaves of the pattern share, and that was not seen to be empty.
The leaves accept `g` and `o`. -/
structure Entry.IsSharedBy (p : Pattern) (e : Entry) (l r : Resolver.Sighting)
    (g o : Requirement) : Prop where
  left : e.left = Search.side l
  right : e.right = Search.side r
  left_mem : .atom l.atom ∈ p.root.walk
  right_mem : .atom r.atom ∈ p.root.walk
  left_accepts : l.atom.requirement p.flags = .ok g
  right_accepts : r.atom.requirement p.flags = .ok o
  shared : g.intersect o = .ok e.shared
  seen : e.shared.isEmpty = false

/-- The entry is about what some leaves of the pattern share. -/
def Entry.IsShared (p : Pattern) (e : Entry) : Prop := ∃ l r g o, e.IsSharedBy p l r g o

variable {p : Pattern}

/-- Leaves of a parsed pattern have proper requirements. -/
theorem Pattern.IsWellFormed.proper (wf : p.IsWellFormed) {a : Atom} (ha : .atom a ∈ p.root.walk)
    {g : Requirement} (hg : a.requirement p.flags = .ok g) : g.Proper := by
  obtain ⟨g', hg', pg⟩ := Shape.exists_requirement (wf.sound _ ha) p.flags
  obtain rfl : g' = g := Except.ok.inj (hg'.symm.trans hg)
  exact pg

namespace Entry

variable {e d : Entry} {l r : Resolver.Sighting} {g o : Requirement}

/-- **Some character satisfies both leaves**, unless they have the same requirement.  An
intersection of different requirements that is not seen to be empty is not empty. -/
theorem IsSharedBy.exists_contains (wf : p.IsWellFormed) (h : e.IsSharedBy p l r g o)
    (differ : g ≠ o) :
    ∃ c : Int, 0 ≤ c ∧ c ≤ 0x10FFFF ∧ g.contains c = true ∧ o.contains c = true := by
  have exact := Requirement.isEmpty_intersect_iff (wf.proper h.left_mem h.left_accepts)
    (wf.proper h.right_mem h.right_accepts) h.shared
  have seen : ¬ e.shared.isEmpty = true := by simp [h.seen]
  refine Classical.byContradiction fun none => seen (exact.mpr ⟨fun same => absurd same differ, ?_⟩)
  exact fun c low high both => none ⟨c, low, high, both⟩

theorem IsShared.proper (wf : p.IsWellFormed) (h : e.IsShared p) : e.shared.Proper := by
  obtain ⟨l, r, g, o, h⟩ := h
  obtain ⟨i, hi, pi, -⟩ := Requirement.exists_intersect (wf.proper h.left_mem h.left_accepts)
    (wf.proper h.right_mem h.right_accepts)
  obtain rfl : i = e.shared := Except.ok.inj (hi.symm.trans h.shared)
  exact pi

/-- **When what two entries are about is seen to have nothing in common.** -/
theorem overlap_eq_false_iff (wf : p.IsWellFormed) (hd : d.IsShared p) (he : e.IsShared p) :
    Score.overlap d.shared e.shared = false ↔ d.shared ≠ e.shared ∧
      ∀ c : Int, 0 ≤ c → c ≤ 0x10FFFF →
        ¬ (d.shared.contains c = true ∧ e.shared.contains c = true) := by
  obtain ⟨i, hi, -, -⟩ := Requirement.exists_intersect (hd.proper wf) (he.proper wf)
  obtain ⟨l, r, g, o, h⟩ := hd
  have exact := Requirement.isEmpty_intersect_iff (IsShared.proper wf ⟨l, r, g, o, h⟩)
    (he.proper wf) hi
  rw [Score.overlap, hi, Bool.not_eq_false', exact, h.seen]
  simp

end Entry

namespace Score

/-- Two lists disagree at some position that they have in common, or not at all. -/
theorem agree_eq_false_iff {α : Type} {ok : α → α → Bool} : ∀ {as bs : List α},
    agree ok as bs = false ↔
      ∃ (i : Nat) (a b : α), as[i]? = some a ∧ bs[i]? = some b ∧ ok a b = false
  | [], bs => by simp [agree]
  | a :: as, [] => by simp [agree]
  | a :: as, b :: bs => by
    rw [agree, Bool.and_eq_false_iff, agree_eq_false_iff]
    constructor
    · rintro (h | ⟨i, a', b', ha, hb, h⟩)
      · exact ⟨0, a, b, rfl, rfl, h⟩
      · exact ⟨i + 1, a', b', ha, hb, h⟩
    · rintro ⟨_ | i, a', b', ha, hb, h⟩
      · obtain rfl := Option.some.inj ha
        obtain rfl := Option.some.inj hb
        exact .inl h
      · exact .inr ⟨i, a', b', ha, hb, h⟩

/-- **When two trails are incompatible.**  They are compared entry by entry, as far as both go. -/
theorem compatible_eq_false_iff (wf : p.IsWellFormed) {t u : Trail}
    (ht : ∀ e ∈ t.entries, e.IsShared p) (hu : ∀ e ∈ u.entries, e.IsShared p) :
    compatible t u = false ↔ ∃ (i : Nat) (d e : Entry), t.entries[i]? = some d ∧
      u.entries[i]? = some e ∧ d.shared ≠ e.shared ∧ ∀ c : Int, 0 ≤ c → c ≤ 0x10FFFF →
        ¬ (d.shared.contains c = true ∧ e.shared.contains c = true) := by
  rw [compatible, agree_eq_false_iff]
  simp only [requirements, List.getElem?_map, Option.map_eq_some_iff]
  constructor
  · rintro ⟨i, _, _, ⟨d, hd, rfl⟩, ⟨e, he, rfl⟩, h⟩
    refine ⟨i, d, e, hd, he, (Entry.overlap_eq_false_iff wf ?_ ?_).mp h⟩
    · exact ht d (List.mem_of_getElem? hd)
    · exact hu e (List.mem_of_getElem? he)
  · rintro ⟨i, d, e, hd, he, h⟩
    refine ⟨i, _, _, ⟨d, hd, rfl⟩, ⟨e, he, rfl⟩, (Entry.overlap_eq_false_iff wf ?_ ?_).mpr h⟩
    · exact ht d (List.mem_of_getElem? hd)
    · exact hu e (List.mem_of_getElem? he)

end Score

namespace Search

open Resolver

/-! ## 2. Trails -/

/-- The work is backed by runs, and all entries of its trail are about what leaves share. -/
def Shares (p : Pattern) (w : Work) : Prop :=
  (∃ ls rs, Backed p w ls rs) ∧ ∀ e ∈ w.trail.entries, e.IsShared p

/-- What two leaves of a pattern share is the intersection of their requirements. -/
theorem intersect_of_shared {o : Options} {l r : Atom} {i : Requirement}
    (h : (contextOf p o).shared l r = .ok i) :
    ∃ g k, l.requirement p.flags = .ok g ∧ r.requirement p.flags = .ok k ∧
      g.intersect k = .ok i := by
  have table : ∀ a, (contextOf p o).requirement a = a.requirement p.flags :=
    requirementIn_eq p.flags p.root
  simp only [Context.shared, table] at h
  split at h
  · cases h
  · cases h
  · rename_i g k hg hk
    exact ⟨g, k, hg, hk, h⟩

/-- **One step shares on**, and finds only trails about what leaves share. -/
theorem Shares.expand (wf : p.IsWellFormed) {o : Options} {found : List Trail} {w : Work}
    {work : List Work} {new : Option Trail} (h : Shares p w)
    (he : expand (contextOf p o) found w = .ok (.replace work new)) :
    (∀ w' ∈ work, Shares p w') ∧ ∀ t, new = some t → ∀ e ∈ t.entries, e.IsShared p := by
  obtain ⟨⟨ls, rs, backed⟩, entries⟩ := h
  have backs := (backed_of_expand wf backed he).1
  have pair : ∀ {w' u v : Work}, w' ∈ [u, v] ↔ w' = u ∨ w' = v := by simp
  rcases expand_cases he with ⟨stay, enter, -, rfl, rfl⟩ | ⟨stay, enter, -, rfl, rfl⟩ |
    ⟨rfl, rfl⟩ | ⟨l, r, w', hl, hr, hc, rfl, rfl⟩
  · refine ⟨fun w' hw => ⟨backs w' hw, ?_⟩, by simp⟩
    rcases pair.mp hw with rfl | rfl <;> exact entries
  · refine ⟨fun w' hw => ⟨backs w' hw, ?_⟩, by simp⟩
    rcases pair.mp hw with rfl | rfl <;> exact entries
  · exact ⟨by simp, by simp⟩
  · obtain ⟨-, -, -, shared, hs, seen, rfl⟩ := compare_eq_proceed_iff.mp hc
    obtain ⟨g, k, hg, hk, hi⟩ := intersect_of_shared hs
    have hlm := mem_walk_of_leads (backed.left.trans (leads_of_consumes hl).2) l.sighting (by simp)
    have hrm := mem_walk_of_leads (backed.right.trans (leads_of_consumes hr).2) r.sighting (by simp)
    have pushed : ∀ e ∈ (w.trail.push ⟨shared, l.side, r.side⟩).entries, e.IsShared p := by
      rw [Trail.entries_push]
      refine List.forall_mem_append.mpr ⟨entries, fun e he => ?_⟩
      obtain rfl := List.mem_singleton.mp he
      exact ⟨l.sighting, r.sighting, g, k, rfl, rfl, hlm, hrm, hg, hk, hi, seen⟩
    refine ⟨fun w' hw => ⟨backs w' hw, ?_⟩, fun t ht => ?_⟩
    · obtain rfl := List.mem_singleton.mp hw
      exact pushed
    · split at ht
      · obtain rfl := Option.some.inj ht
        exact pushed
      · cases ht

/-- **All entries of the trails of a search are about what leaves share.**  This holds of all work
on the stack, as each step keeps it. -/
theorem isShared_of_mem_trails (wf : p.IsWellFormed) {o : Options} {res : Result}
    (searched : outcome p o = .ok res) :
    ∀ t ∈ res.trails, ∀ e ∈ t.entries, e.IsShared p := by
  refine forall_trails_of_run (I := Shares p) (fun hw he => hw.expand wf he) ?_ ?_ searched
  · intro w hw
    obtain rfl := List.mem_singleton.mp hw
    exact ⟨⟨[], [], backed_initial p⟩, by simp [Work.initial, Trail.empty, Trail.entries]⟩
  · simp [State.initial]

/-- **When leaves are seen to share nothing.**  The intersection of the requirements of two leaves,
of the same or of two parsed patterns, has the form of the empty requirement if and only if no
character satisfies both, provided that a requirement which meets itself has that form.  So the
sides of an entry of a trail have a common character unless they have the same requirement, and
two trails are incompatible if and only if they are about different requirements without a common
character at some position. -/
theorem isEmpty_intersect_of_parse {source : Bytes} {flags : Flags}
    (parsed : Pattern.parse source flags = .ok p) :
    (∀ {source' : Bytes} {flags' : Flags} {q : Pattern},
      Pattern.parse source' flags' = .ok q → ∀ {a b : Atom}, .atom a ∈ p.root.walk →
        .atom b ∈ q.root.walk → ∃ g o i, a.requirement p.flags = .ok g ∧
          b.requirement q.flags = .ok o ∧ g.intersect o = .ok i ∧
          (i.isEmpty = true ↔ (g = o → g.isEmpty = true) ∧ ∀ c : Int, 0 ≤ c → c ≤ 0x10FFFF →
            ¬ (g.contains c = true ∧ o.contains c = true))) ∧
    ∀ {options : Options} {res : Result}, outcome p options = .ok res → ∀ t ∈ res.trails,
      (∀ e ∈ t.entries, ∃ l r g o, e.IsSharedBy p l r g o ∧
        (g ≠ o → ∃ c : Int, 0 ≤ c ∧ c ≤ 0x10FFFF ∧ g.contains c = true ∧ o.contains c = true)) ∧
      ∀ u ∈ res.trails, Score.compatible t u = false ↔
        ∃ (i : Nat) (d e : Entry), t.entries[i]? = some d ∧ u.entries[i]? = some e ∧
          d.shared ≠ e.shared ∧ ∀ c : Int, 0 ≤ c → c ≤ 0x10FFFF →
            ¬ (d.shared.contains c = true ∧ e.shared.contains c = true) := by
  have wf := Pattern.isWellFormed_of_parse parsed
  refine ⟨fun {source' flags' q} parsed' a b ha hb => ?_, fun {options res} searched t ht => ?_⟩
  · obtain ⟨g, hg, pg⟩ := Shape.exists_requirement (wf.sound _ ha) p.flags
    obtain ⟨o, ho, po⟩ := Shape.exists_requirement
      ((Pattern.isWellFormed_of_parse parsed').sound _ hb) q.flags
    obtain ⟨i, hi, -, -⟩ := Requirement.exists_intersect pg po
    exact ⟨g, o, i, hg, ho, hi, Requirement.isEmpty_intersect_iff pg po hi⟩
  · have shared := isShared_of_mem_trails wf searched
    refine ⟨fun e he => ?_,
      fun u hu => Score.compatible_eq_false_iff wf (shared t ht) (shared u hu)⟩
    obtain ⟨l, r, g, o, h⟩ := shared t ht e he
    exact ⟨l, r, g, o, h, h.exists_contains wf⟩

/-- `\d` and `[^0-9]` are seen to share nothing. -/
theorem isEmpty_intersect_of_digits : ∃ p a b g o i,
    Pattern.parse (Bytes.ofString "\\d[^0-9]") {} = .ok p ∧ .atom a ∈ p.root.walk ∧
      .atom b ∈ p.root.walk ∧ a.requirement p.flags = .ok g ∧ b.requirement p.flags = .ok o ∧
      g.intersect o = .ok i ∧ i.isEmpty = true ∧ g ≠ o ∧
      ∀ c : Int, 0 ≤ c → c ≤ 0x10FFFF → ¬ (g.contains c = true ∧ o.contains c = true) := by
  let a : Atom := ⟨⟨1, 0, 2⟩, .escape ⟨.digit, false⟩⟩
  let b : Atom := ⟨⟨2, 2, 8⟩, .charClass ⟨true, [⟨0x30, 0x39⟩], [], []⟩⟩
  let p : Pattern :=
    { source := Bytes.ofString "\\d[^0-9]"
      flags := {}
      root := .sequence ⟨3, 0, 8⟩ [.atom a, .atom b]
      captures := 0 }
  have parsed : Pattern.parse (Bytes.ofString "\\d[^0-9]") {} = .ok p := by
    with_unfolding_all rfl
  have ha : .atom a ∈ p.root.walk := by simp [p, a, Node.walk, Node.walkAll]
  have hb : .atom b ∈ p.root.walk := by simp [p, b, Node.walk, Node.walkAll]
  obtain ⟨g, o, i, hg, ho, hi, exact⟩ := (isEmpty_intersect_of_parse parsed).1 parsed ha hb
  have digits : a.requirement p.flags = .ok (Requirement.digit false) := rfl
  have others : b.requirement p.flags = .ok (Requirement.digit true) := rfl
  obtain rfl := Except.ok.inj (hg.symm.trans digits)
  obtain rfl := Except.ok.inj (ho.symm.trans others)
  have empty : i.isEmpty = true := by
    have : (Requirement.digit false).intersect (Requirement.digit true) = .ok ⟨false, ⟨[]⟩, []⟩ := by
      with_unfolding_all rfl
    obtain rfl := Except.ok.inj (hi.symm.trans this)
    rfl
  exact ⟨p, a, b, _, _, i, parsed, ha, hb, hg, ho, hi, empty, by decide, (exact.mp empty).2⟩

/-- **Nothing satisfies `[^\d\D]`, and this is not seen** where it meets itself.  So the pattern
`(?:[^\d\D]|[^\d\D])$` has a trail that no input can drive. -/
theorem follows_nothing : ∃ p a g res t e,
    Pattern.parse (Bytes.ofString "(?:[^\\d\\D]|[^\\d\\D])$") {} = .ok p ∧
      .atom a ∈ p.root.walk ∧ a.requirement p.flags = .ok g ∧ g.intersect g = .ok g ∧
      g.isEmpty = false ∧ (∀ c : Int, 0 ≤ c → c ≤ 0x10FFFF → g.contains c = false) ∧
      outcome p {} = .ok res ∧ t ∈ res.trails ∧ e ∈ t.entries ∧ e.shared = g := by
  let g : Requirement := ⟨true, ⟨[⟨0, 0x10FFFF⟩]⟩, []⟩
  let a : Atom := ⟨⟨3, 3, 10⟩, .charClass
    ⟨true, [], [(⟨1, 5, 7⟩, ⟨.digit, false⟩), (⟨2, 7, 9⟩, ⟨.digit, true⟩)], []⟩⟩
  let b : Atom := ⟨⟨6, 11, 18⟩, .charClass
    ⟨true, [], [(⟨4, 13, 15⟩, ⟨.digit, false⟩), (⟨5, 15, 17⟩, ⟨.digit, true⟩)], []⟩⟩
  let p : Pattern :=
    { source := Bytes.ofString "(?:[^\\d\\D]|[^\\d\\D])$"
      flags := {}
      root := .sequence ⟨10, 0, 20⟩ [
        .group ⟨⟨8, 0, 19⟩, .nonCapture, 0, []⟩ (.alternation ⟨7, 3, 18⟩ [.atom a, .atom b]),
        .anchor ⟨9, 19, 20⟩ .stop]
      captures := 0 }
  have parsed : Pattern.parse (Bytes.ofString "(?:[^\\d\\D]|[^\\d\\D])$") {} = .ok p := by
    with_unfolding_all rfl
  have mem : .atom a ∈ p.root.walk := by simp [p, Node.walk, Node.walkAll, a]
  have accepts : a.requirement p.flags = .ok g := by with_unfolding_all rfl
  have nothing : ∀ c : Int, 0 ≤ c → c ≤ 0x10FFFF → g.contains c = false := by
    intro c low high
    have every : CodePoint.Set.contains ⟨[⟨0, 0x10FFFF⟩]⟩ c = true :=
      CodePoint.Set.contains_universe low high
    rw [Requirement.contains_ofSet, every]
    rfl
  have found : ((outcome p {}).toOption.any fun res =>
      res.trails.map (·.entries.map (·.shared)) == [[g]]) = true := by
    decide +kernel
  cases searched : outcome p {} with
  | error e => simp [searched, Except.toOption] at found
  | ok res =>
    have found : res.trails.map (·.entries.map (·.shared)) = [[g]] := by
      simpa [searched, Except.toOption] using found
    obtain ⟨t, ht, he⟩ := List.map_eq_singleton_iff.mp found
    obtain ⟨e, hte, shared⟩ := List.map_eq_singleton_iff.mp he
    exact ⟨p, a, g, res, t, e, parsed, mem, accepts, Requirement.intersect_self g, rfl, nothing,
      searched, by simp [ht], by simp [hte], shared⟩

end Search

end Backtrack
