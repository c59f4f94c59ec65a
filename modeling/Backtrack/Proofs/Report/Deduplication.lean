/-
# Which trails are left out

A report lists trails by what they look like in the source, and leaves out a trail that looks like
an earlier one.  What a trail looks like is a text of byte offsets.  Over one pattern it tells
trails apart: two have the same text if and only if they go through the same sides
(`Trail.key_eq_iff_agrees`).  So the first trail of each kind is left (`dedupTrails_eq_new`).

There are two steps.  The text of a trail is taken apart into offsets (`Trail.key_eq_iff`): an
offset ends before the mark behind it, iterations and references start with marks of their own, and
none of those marks is a digit.  And the offsets of a parsed pattern tell leaves, quantifiers and
references (`Side.place_eq_iff`), each by where it starts.

What two leaves accept together is not part of the text, and nothing is said of it here.
-/
import Backtrack.Proofs.Pattern.Spans
import Backtrack.Proofs.Search.Sides
import Backtrack.Proofs.Text.Unambiguous
import Backtrack.Report.Basic

namespace Backtrack

/-! ## 1. Offsets

Each part of a text ends before a mark or a sign that it does not hold itself, so it can be taken
off from the front.  A list of parts ends where no further part can begin. -/

/-- The offsets that the text of a side shows: where its leaf starts and stops, where its
quantifiers start, with their iterations, and where its references start. -/
abbrev Place := (Int × Int) × (List (Nat × Int) × List Nat)

namespace Place

/-- The text of two offsets. -/
def writeSpan (s : Int × Int) : List Char :=
  (toString s.1).toList ++ (['-'] ++ (toString s.2).toList)

/-- The text of an iteration. -/
def writeTurn (i : Nat × Int) : List Char :=
  [' ', 'q', '@'] ++ ((toString i.1).toList ++ (['#'] ++ (toString i.2).toList))

/-- The text of a reference. -/
def writeVia (start : Nat) : List Char :=
  [' ', 'v', 'i', 'a', ' ', '\\', '@'] ++ (toString start).toList

/-- The text of all offsets. -/
def write (x : Place) : List Char :=
  writeSpan x.1 ++ (x.2.1.flatMap writeTurn ++ x.2.2.flatMap writeVia)

/-- A mark of a trail comes first. -/
def Ends (r : List Char) : Prop := ∃ c ∈ r.head?, c = '/' ∨ c = ';'

theorem Ends.noDigit {r : List Char} (h : Ends r) : NoDigit r := by
  obtain ⟨c, hc, mark⟩ := h
  intro d hd
  obtain rfl := Option.mem_unique hc hd
  rcases mark with rfl | rfl <;> rfl

/-- No iteration comes first, and no digit. -/
def EndsTurns (r : List Char) : Prop := NoDigit r ∧ ¬ [' ', 'q'] <+: r

theorem unambiguous_span : Unambiguous writeSpan NoDigit :=
  unambiguous_int.pair (unambiguous_int.after ['-']) fun _ _ _ => by simp [NoDigit]

theorem unambiguous_turn : Unambiguous writeTurn NoDigit :=
  (unambiguous_nat.pair (unambiguous_int.after ['#']) fun _ _ _ => by simp [NoDigit]).after _

theorem unambiguous_turns : Unambiguous (fun is : List (Nat × Int) => is.flatMap writeTurn)
    EndsTurns :=
  unambiguous_turn.list (fun _ _ => by simp [NoDigit, writeTurn]) (fun _ h => h.1)
    fun _ _ h => h.2 (by simp [writeTurn])

theorem unambiguous_vias : Unambiguous (fun rs : List Nat => rs.flatMap writeVia) Ends :=
  (unambiguous_nat.after _).list (fun _ _ => by simp [NoDigit]) (fun _ => Ends.noDigit)
    fun _ _ h => by simp [Ends] at h

theorem Ends.endsTurns {r : List Char} (h : Ends r) : EndsTurns r := by
  refine ⟨h.noDigit, fun starts => ?_⟩
  obtain ⟨c, hc, mark⟩ := h
  obtain ⟨t, rfl⟩ := starts
  obtain rfl : ' ' = c := Option.some.inj hc
  rcases mark with mark | mark <;> cases mark

theorem endsTurns_vias (rs : List Nat) {r : List Char} (h : Ends r) :
    EndsTurns (rs.flatMap writeVia ++ r) := by
  cases rs with
  | nil => exact h.endsTurns
  | cons n rs => simp [EndsTurns, NoDigit, writeVia]

theorem noDigit_turns (is : List (Nat × Int)) {r : List Char} (h : EndsTurns r) :
    NoDigit (is.flatMap writeTurn ++ r) := by
  cases is with
  | nil => exact h.1
  | cons i is => simp [NoDigit, writeTurn]

/-- **The text of a side can be taken apart.**  Its parts are taken off one by one, and each ends
before a mark that begins the next. -/
theorem unambiguous_write : Unambiguous write Ends := by
  have behind := unambiguous_turns.pair unambiguous_vias fun rs _ h => endsTurns_vias rs h
  refine unambiguous_span.pair behind fun x r h => ?_
  rw [List.append_assoc]
  exact noDigit_turns x.1 (endsTurns_vias x.2 h)

/-- The text of an entry: both of its sides, each before a mark. -/
def writeEntry (x : Place × Place) : List Char := x.1.write ++ (['/'] ++ (x.2.write ++ [';']))

/-- **The text of a trail can be taken apart.** -/
theorem injective_writeEntries :
    Function.Injective fun xs : List (Place × Place) => xs.flatMap writeEntry := by
  have right : Unambiguous (fun x : Place => ['/'] ++ (x.write ++ [';'])) fun _ => True :=
    (unambiguous_write.before fun r _ => ⟨';', rfl, .inr rfl⟩).after _
  have entry : Unambiguous writeEntry fun _ => True :=
    unambiguous_write.pair right fun _ _ _ => ⟨'/', rfl, .inl rfl⟩
  have entries : Unambiguous (fun xs : List (Place × Place) => xs.flatMap writeEntry) (· = []) :=
    entry.list (fun _ _ => trivial) (fun _ _ => trivial) fun x r h => by simp [writeEntry] at h
  exact entries.injective rfl

end Place

/-- Where a side is, as far as its text shows. -/
def Side.place (s : Side) : Place :=
  ((s.span.start, s.span.stop), (s.iterations.map fun i => (i.quantifier.site.start, i.index),
    s.via.map (·.site.start)))

theorem Side.toList_text (s : Side) : s.text.toList = s.place.write := by
  simp only [text, place, Place.write, Place.writeSpan, String.toList_append, String.toList_join,
    List.flatMap_map, List.append_assoc]
  rfl

/-- Where the sides of a trail are. -/
def Trail.places (t : Trail) : List (Place × Place) :=
  t.entries.map fun e => (e.left.place, e.right.place)

/-- **The text of a trail shows the same as its offsets.** -/
theorem Trail.key_eq_iff {t u : Trail} : t.key = u.key ↔ t.places = u.places := by
  have text : ∀ t : Trail, t.key.toList = t.places.flatMap Place.writeEntry := by
    intro t
    simp only [key, places, String.toList_join, String.toList_append, List.flatMap_map,
      Side.toList_text, Place.writeEntry, List.append_assoc]
    rfl
  rw [← String.toList_inj, text, text]
  exact Place.injective_writeEntries.eq_iff

/-! ## 2. What is left

To be left is to be the first one with a key, and the recursion keeps the keys that have been
seen. -/

/-- A trail whose key is not in `seen` is at this position, and none before it has that key. -/
def IsNew (seen : List String) (ts : List Trail) (i : Nat) : Prop :=
  ∃ t, ts[i]? = some t ∧ t.key ∉ seen ∧ ∀ j u, j < i → ts[j]? = some u → u.key ≠ t.key

section New

variable {seen : List String} {t : Trail} {ts : List Trail}

theorem isNew_zero : IsNew seen (t :: ts) 0 ↔ t.key ∉ seen := by
  simp [IsNew]

theorem isNew_succ {i : Nat} : IsNew seen (t :: ts) (i + 1) ↔ IsNew (t.key :: seen) ts i := by
  -- That `t` has another key is asked at position 0 on the left, and of `seen` on the right.
  refine exists_congr fun u => and_congr_right fun _ => ?_
  rw [List.mem_cons, not_or, and_comm (a := u.key ≠ t.key), and_assoc]
  refine and_congr_right fun _ => ⟨fun none => ⟨?_, fun j v hj hv => ?_⟩, ?_⟩
  · exact (none 0 t (Nat.succ_pos i) rfl).symm
  · exact none (j + 1) v (Nat.succ_lt_succ hj) hv
  · rintro ⟨own, none⟩ (_ | j) v hj hv
    · obtain rfl := Option.some.inj hv
      exact own.symm
    · exact none j v (Nat.lt_of_succ_lt_succ hj) hv

theorem isNew_of_mem (known : t.key ∈ seen) {i : Nat} :
    IsNew (t.key :: seen) ts i ↔ IsNew seen ts i := by
  have same : ∀ k, k ∈ t.key :: seen ↔ k ∈ seen := fun k =>
    ⟨fun h => (List.mem_cons.mp h).elim (fun h => h ▸ known) id, List.mem_cons_of_mem _⟩
  simp only [IsNew, same]

end New

theorem dedupTrails_sublist : ∀ (seen : List String) (ts : List Trail),
    (dedupTrails seen ts).Sublist ts
  | _, [] => List.Sublist.refl _
  | seen, t :: ts => by
    rw [dedupTrails]
    split
    · exact (dedupTrails_sublist seen ts).cons t
    · exact (dedupTrails_sublist _ ts).cons_cons t

/-- **The new trails are left**, in their order.  The induction goes along the trails, with the
keys seen so far as a parameter. -/
theorem dedupTrails_eq_new : ∀ (ts : List Trail) (seen : List String), ∃ kept : List Nat,
    kept.Pairwise (· < ·) ∧ (dedupTrails seen ts).map some = kept.map (ts[·]?) ∧
      ∀ i, i ∈ kept ↔ IsNew seen ts i
  | [], seen => ⟨[], List.Pairwise.nil, rfl, fun i => by simp [IsNew]⟩
  | t :: ts, seen => by
    have later : ∀ kept : List Nat, kept.Pairwise (· < ·) →
        (kept.map (· + 1)).Pairwise (· < ·) := fun kept h =>
      List.pairwise_map.mpr (h.imp Nat.succ_lt_succ)
    rw [dedupTrails]
    split
    · rename_i known
      have known : t.key ∈ seen := List.contains_iff_mem.mp known
      obtain ⟨kept, ordered, left, which⟩ := dedupTrails_eq_new ts seen
      refine ⟨kept.map (· + 1), later kept ordered, ?_, fun i => ?_⟩
      · rw [left, List.map_map]
        rfl
      · cases i with
        | zero => simp [isNew_zero, known]
        | succ i => simp [isNew_succ, isNew_of_mem known, which]
    · rename_i new
      have new : t.key ∉ seen := fun h => new (List.contains_iff_mem.mpr h)
      obtain ⟨kept, ordered, left, which⟩ := dedupTrails_eq_new ts (t.key :: seen)
      refine ⟨0 :: kept.map (· + 1), List.pairwise_cons.mpr ⟨by simp, later kept ordered⟩, ?_,
        fun i => ?_⟩
      · rw [List.map_cons, List.map_cons, left, List.map_map]
        rfl
      · cases i with
        | zero => simp [isNew_zero, new]
        | succ i => simp [isNew_succ, which]

/-! ## 3. Trails over one pattern

Offsets tell nodes apart only among those of a kind, and only in a tree that was parsed.  So
trails have to be over one tree, and those of a search are. -/

/-- The sides are at the same leaf, in the same iterations of the same quantifiers, and get there
over the same references. -/
structure Side.Agrees (s t : Side) : Prop where
  node : s.node = t.node
  iterations : s.iterations.map (fun i => (i.quantifier, i.index)) =
    t.iterations.map fun i => (i.quantifier, i.index)
  via : s.via = t.via

namespace Trail

/-- The trails are of the same length and go through the same sides, left and right. -/
def Agrees (t u : Trail) : Prop :=
  List.Forall₂ (fun d e => d.left.Agrees e.left ∧ d.right.Agrees e.right) t.entries u.entries

/-- The trail is about nodes of the tree. -/
def IsWithin (root : Node) (t : Trail) : Prop :=
  ∀ e ∈ t.entries, e.left.IsWithin root ∧ e.right.IsWithin root

end Trail

/-- A trail is at this position, and none before it agrees with it. -/
def IsFirst (ts : List Trail) (i : Nat) : Prop :=
  ∃ t, ts[i]? = some t ∧ ∀ j u, j < i → ts[j]? = some u → ¬ u.Agrees t

/-- What is `left` of some trails are the first ones of their kind, in their order. -/
def AreFirsts (ts left : List Trail) : Prop :=
  ∃ kept : List Nat, kept.Pairwise (· < ·) ∧ left.map some = kept.map (ts[·]?) ∧
    ∀ i, i ∈ kept ↔ IsFirst ts i

section Parsed

variable {source : Bytes} {flags : Flags} {p : Pattern}

/-- **Sides over one parsed pattern are in one place exactly if they agree.**  A leaf, a
quantifier and a reference are each told by where they start, among their own kind. -/
theorem Side.place_eq_iff (h : Pattern.parse source flags = .ok p) {s t : Side}
    (hs : s.IsWithin p.root) (ht : t.IsWithin p.root) : s.place = t.place ↔ s.Agrees t := by
  obtain ⟨a, ha, hna, hsa⟩ := hs.node
  obtain ⟨b, hb, hnb, hsb⟩ := ht.node
  simp only [place, hsa, hsb, Prod.mk.injEq]
  constructor
  · rintro ⟨⟨start, -⟩, turns, via⟩
    have leaf : a = b := Pattern.eq_of_start_atom h ha hb (Int.ofNat.inj start)
    refine ⟨by rw [hna, hnb, leaf], map_eq_of_map_eq turns fun i hi j hj same => ?_,
      eq_of_map_eq via fun r hr r' hr' =>
        Pattern.eq_of_start_reference h (hs.via r hr) (ht.via r' hr')⟩
    obtain ⟨_, hi⟩ := hs.quantifiers i hi
    obtain ⟨_, hj⟩ := ht.quantifiers j hj
    obtain ⟨start, index⟩ := Prod.mk.inj same
    exact Prod.ext (Pattern.eq_of_start_quantifier h hi hj start) index
  · intro agree
    have leaf : a = b := Node.atom.inj (Node.eq_of_id (Pattern.isWellFormed_of_parse h).distinct
      ha.mem hb.mem (hna.symm.trans (agree.node.trans hnb)))
    have turns := congrArg (List.map fun x : Quantifier × Int => (x.1.site.start, x.2))
      agree.iterations
    rw [List.map_map, List.map_map] at turns
    exact ⟨by rw [leaf]; exact ⟨rfl, rfl⟩, turns, by rw [agree.via]⟩

/-- **Trails over one parsed pattern look alike exactly if they agree.** -/
theorem Trail.places_eq_iff (h : Pattern.parse source flags = .ok p) {t u : Trail}
    (ht : t.IsWithin p.root) (hu : u.IsWithin p.root) : t.places = u.places ↔ t.Agrees u := by
  rw [places, places, ← List.forall₂_eq_eq_eq, List.forall₂_map_left_iff,
    List.forall₂_map_right_iff, Agrees, List.forall₂_iff_zip, List.forall₂_iff_zip]
  refine and_congr_right fun _ => forall₂_congr fun d e => forall_congr' fun mem => ?_
  obtain ⟨hd, he⟩ := List.of_mem_zip mem
  rw [Prod.mk.injEq, Side.place_eq_iff h (ht d hd).1 (hu e he).1,
    Side.place_eq_iff h (ht d hd).2 (hu e he).2]

/-- The trails of a search are about nodes of its pattern. -/
theorem Search.isWithin_of_mem_trails (h : Pattern.parse source flags = .ok p) {o : Options}
    {res : Result} (searched : outcome p o = .ok res) : ∀ t ∈ res.trails, t.IsWithin p.root :=
  fun t ht e he =>
    have sides := isOver_of_mem_trails h searched t ht e he
    ⟨sides.1.isWithin, sides.2.isWithin⟩

/-- **Trails over one parsed pattern have the same key exactly if they agree.** -/
theorem Trail.key_eq_iff_agrees (h : Pattern.parse source flags = .ok p) {t u : Trail}
    (ht : t.IsWithin p.root) (hu : u.IsWithin p.root) : t.key = u.key ↔ t.Agrees u :=
  key_eq_iff.trans (places_eq_iff h ht hu)

/-- To be new is to be the first of a kind. -/
theorem isNew_nil_iff (h : Pattern.parse source flags = .ok p) {ts : List Trail}
    (within : ∀ t ∈ ts, t.IsWithin p.root) (i : Nat) : IsNew [] ts i ↔ IsFirst ts i := by
  refine exists_congr fun t => and_congr_right fun at_i => ?_
  rw [and_iff_right List.not_mem_nil]
  refine forall₂_congr fun j u => forall₂_congr fun _ at_j => not_congr ?_
  exact Trail.key_eq_iff_agrees h (within u (List.mem_of_getElem? at_j))
    (within t (List.mem_of_getElem? at_i))

namespace Report

/-- **The first trail of each kind is left.**  Over one parsed pattern, where all trails of a search
are, trails have the same key exactly if they agree. -/
theorem dedup_exact (parsed : Pattern.parse source flags = .ok p) :
    (∀ o res, Search.outcome p o = .ok res → ∀ t ∈ res.trails, t.IsWithin p.root) ∧
      ∀ ts : List Trail, (∀ t ∈ ts, t.IsWithin p.root) →
        (∀ t ∈ ts, ∀ u ∈ ts, t.key = u.key ↔ t.Agrees u) ∧
          (dedupTrails [] ts).Sublist ts ∧ AreFirsts ts (dedupTrails [] ts) := by
  refine ⟨fun o res searched => Search.isWithin_of_mem_trails parsed searched,
    fun ts within => ⟨fun t ht u hu => ?_, dedupTrails_sublist [] ts, ?_⟩⟩
  · exact Trail.key_eq_iff_agrees parsed (within t ht) (within u hu)
  · obtain ⟨kept, ordered, left, new⟩ := dedupTrails_eq_new ts []
    exact ⟨kept, ordered, left, fun i => (new i).trans (isNew_nil_iff parsed within i)⟩

/-- A search of `(?:a|a)b$` finds two trails, which part at the letter `a` and differ in length.  Of
what it finds, taken twice, each trail is left once. -/
theorem dedup_exact_of_twice :
    ∃ p res, Pattern.parse (Bytes.ofString "(?:a|a)b$") {} = .ok p ∧
      Search.outcome p {} = .ok res ∧
      (dedupTrails [] (res.trails ++ res.trails) = res.trails ∧ res.trails.length = 2) ∧
      AreFirsts (res.trails ++ res.trails) (dedupTrails [] (res.trails ++ res.trails)) := by
  have found : Search.finds (Bytes.ofString "(?:a|a)b$") fun res =>
      decide (dedupTrails [] (res.trails ++ res.trails) = res.trails ∧ res.trails.length = 2) := by
    decide +kernel
  obtain ⟨p, res, parsed, searched, once⟩ := Search.exists_of_finds found
  obtain ⟨searches, lists⟩ := dedup_exact parsed
  have within := searches {} res searched
  refine ⟨p, res, parsed, searched, of_decide_eq_true once, (lists _ fun t ht => ?_).2.2⟩
  exact (List.mem_append.mp ht).elim (within t) (within t)

end Report

end Parsed

end Backtrack
