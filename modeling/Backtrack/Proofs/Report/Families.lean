/-
# The score is the size of a family

The score of a pattern is a number that `Score.ofTrails` computes, from tables and by places, and
this file says what it counts: trails of the list that are pairwise compatible, and to which no
other trail of the list can be added (`Score.ofTrails_isFamily`).

A family grows by one comparison of each trail with the members so far, in the order in which they
come.  So each pair is compared once, one way round; and the tables go by the smaller place first,
which need not be the way round that was asked for.  Both rest on compatibility being symmetric
(`Score.compatible_comm`).  That is so although intersecting two requirements takes different ways
for different operands, and although an intersection can be empty without being seen to be: what
`isEmpty_intersect_iff` says about it is the same for both orders.

Greedy families are not the largest ones, and nothing here says that they are.
-/
import Backtrack.Proofs.Emptiness
import Backtrack.Proofs.Report.Deduplication
import Mathlib.Data.Finset.Fin
import Mathlib.Data.Fintype.Card

namespace Backtrack

/-- Everything the trail asks for is a proper requirement. -/
def Trail.IsProper (t : Trail) : Prop := ∀ g ∈ Score.requirements t, g.Proper

namespace Score

/-! ## 1. Compatibility is symmetric

Two trails are compared entry by entry, and an entry is compared by an intersection that may take
another way for each order of its operands.  What counts in the end is whether it is seen to be
empty, and that is the same for both. -/

theorem overlap_comm {g o : Requirement} (hg : g.Proper) (ho : o.Proper) :
    overlap g o = overlap o g := by
  obtain ⟨i, hi, -⟩ := Requirement.exists_intersect hg ho
  obtain ⟨j, hj, -⟩ := Requirement.exists_intersect ho hg
  have same : i.isEmpty = j.isEmpty := by
    rw [Bool.eq_iff_iff, Requirement.isEmpty_intersect_iff hg ho hi,
      Requirement.isEmpty_intersect_iff ho hg hj]
    refine and_congr ⟨?_, ?_⟩ ?_
    · rintro h rfl
      exact h rfl
    · rintro h rfl
      exact h rfl
    · simp only [and_comm]
  simp only [overlap, hi, hj, same]

/-- Lists agree alike under relations that are alike on their members. -/
theorem agree_congr {α β : Type} {ok : α → α → Bool} {ok' : β → β → Bool} {f : α → β} :
    ∀ {as bs : List α}, (∀ a ∈ as, ∀ b ∈ bs, ok' (f a) (f b) = ok a b) →
      agree ok' (as.map f) (bs.map f) = agree ok as bs
  | [], _, _ => by simp [agree]
  | _ :: _, [], _ => by simp [agree]
  | a :: as, b :: bs, h => by
    rw [List.map_cons, List.map_cons, agree, agree, h a List.mem_cons_self b List.mem_cons_self,
      agree_congr fun x hx y hy => h x (List.mem_cons_of_mem _ hx) y (List.mem_cons_of_mem _ hy)]

theorem agree_comm {α : Type} {ok : α → α → Bool} :
    ∀ {as bs : List α}, (∀ a ∈ as, ∀ b ∈ bs, ok a b = ok b a) → agree ok as bs = agree ok bs as
  | [], [], _ => rfl
  | [], _ :: _, _ => rfl
  | _ :: _, [], _ => rfl
  | a :: as, b :: bs, h => by
    rw [agree, agree, h a List.mem_cons_self b List.mem_cons_self,
      agree_comm fun x hx y hy => h x (List.mem_cons_of_mem _ hx) y (List.mem_cons_of_mem _ hy)]

/-- **Which of two trails comes first does not matter.**  All that is asked of an intersection is
whether it is seen to be empty, and that is the same for both orders. -/
theorem compatible_comm {t u : Trail} (ht : t.IsProper) (hu : u.IsProper) :
    compatible t u = compatible u t :=
  agree_comm fun g hg o ho => overlap_comm (ht g hg) (hu o ho)

/-! ## 2. How a family grows

For any relation on places, with no trails in it yet.  That a family is full needs the relation to
be symmetric: a place is turned down for one member that it does not go with, and this member is
still in the family at the end. -/

section Growing

variable {ok : Nat → Nat → Bool}

/-- What becomes of a family `start` once the numbers `js` have been tried on it. -/
structure Grows (ok : Nat → Nat → Bool) (js start family : List Nat) : Prop where
  keeps : ∀ m ∈ start, m ∈ family
  comes : ∀ m ∈ family, m ∈ start ∨ m ∈ js
  nodup : (start ++ js).Nodup → family.Nodup
  pairwise : start.Pairwise (fun j m => ok m j = true) → family.Pairwise fun j m => ok m j = true
  full : ∀ j ∈ js, j ∈ family ∨ ∃ m ∈ family, ok m j = false

theorem grows_foldl (ok : Nat → Nat → Bool) : ∀ js start : List Nat,
    Grows ok js start (js.foldl (grow ok) start)
  | [], start => ⟨fun _ h => h, fun _ h => .inl h, by simp, fun h => h, by simp⟩
  | j :: js, start => by
    have rest := grows_foldl ok js (grow ok start j)
    rw [List.foldl_cons]
    unfold grow at rest ⊢
    split at rest
    · rename_i fits
      rw [if_pos fits]
      have fits : ∀ m ∈ start, ok m j = true := List.all_eq_true.mp fits
      refine ⟨fun m hm => rest.keeps m (List.mem_cons_of_mem _ hm), fun m hm => ?_,
        fun h => rest.nodup (List.perm_middle.nodup_iff.mp h),
        fun h => rest.pairwise (List.pairwise_cons.mpr ⟨fits, h⟩), fun i hi => ?_⟩
      · rcases rest.comes m hm with hm | hm
        · exact (List.mem_cons.mp hm).elim (fun e => .inr (e ▸ List.mem_cons_self)) .inl
        · exact .inr (List.mem_cons_of_mem _ hm)
      · rcases List.mem_cons.mp hi with rfl | hi
        · exact .inl (rest.keeps i List.mem_cons_self)
        · exact rest.full i hi
    · rename_i fails
      rw [if_neg fails]
      obtain ⟨m, hm, hno⟩ : ∃ m ∈ start, ok m j = false := by
        simpa [List.all_eq_true] using fails
      refine ⟨rest.keeps, fun m hm => (rest.comes m hm).imp_right (List.mem_cons_of_mem _),
        fun h => rest.nodup (h.sublist ((List.sublist_cons_self j js).append_left start)),
        rest.pairwise, fun i hi => ?_⟩
      rcases List.mem_cons.mp hi with rfl | hi
      · exact .inr ⟨m, rest.keeps m hm, hno⟩
      · exact rest.full i hi

/-- Numbers below `n` that are pairwise compatible, so many that no other can be added. -/
structure IsFull (ok : Nat → Nat → Bool) (n : Nat) (places : List Nat) : Prop where
  nodup : places.Nodup
  lt : ∀ i ∈ places, i < n
  pairwise : places.Pairwise fun j m => ok m j = true
  full : ∀ j < n, j ∈ places ∨ ∃ m ∈ places, ok m j = false

/-- **A family that has grown from a number is full.**  A number that was turned down does not go
with some member, and members stay. -/
theorem isFull_family (ok : Nat → Nat → Bool) {n seed : Nat} (h : seed < n) :
    IsFull ok n (family ok n seed) := by
  have grows := grows_foldl ok ((List.range n).filter (· != seed)) [seed]
  have others : ∀ j, j ∈ (List.range n).filter (· != seed) ↔ j < n ∧ j ≠ seed := by simp
  refine ⟨grows.nodup ?_, fun i hi => ?_, grows.pairwise (List.pairwise_singleton _ _),
    fun j hj => ?_⟩
  · rw [List.singleton_append, List.nodup_cons, others]
    exact ⟨fun h => h.2 rfl, List.nodup_range.filter _⟩
  · rcases grows.comes i hi with hi | hi
    · exact List.mem_singleton.mp hi ▸ h
    · exact ((others i).mp hi).1
  · by_cases same : j = seed
    · exact .inl (grows.keeps j (List.mem_singleton.mpr same))
    · exact grows.full j ((others j).mpr ⟨hj, same⟩)

/-- Of several seeds, the best is kept. -/
theorem foldl_best (n : Nat) (size : Nat → Nat) : ∀ (seeds : List Nat) (best : Nat),
    seeds.foldl (fun best seed => if best = n then best else max best (size seed)) best = best ∨
      ∃ seed ∈ seeds,
        seeds.foldl (fun best seed => if best = n then best else max best (size seed)) best =
          size seed
  | [], best => .inl rfl
  | seed :: seeds, best => by
    rw [List.foldl_cons]
    split
    · refine (foldl_best n size seeds best).imp_right ?_
      exact fun ⟨i, hi, h⟩ => ⟨i, List.mem_cons_of_mem _ hi, h⟩
    · rcases foldl_best n size seeds (max best (size seed)) with h | ⟨i, hi, h⟩
      · rw [h]
        rcases Nat.le_total (size seed) best with hle | hle
        · exact .inl (Nat.max_eq_left hle)
        · exact .inr ⟨seed, List.mem_cons_self, Nat.max_eq_right hle⟩
      · exact .inr ⟨i, List.mem_cons_of_mem _ hi, h⟩

/-- **The largest family found is one of those that were grown.**  So what is known of each of
them is known of it. -/
theorem exists_largestFamily_eq (ok : Nat → Nat → Bool) {n : Nat} (h : 0 < n) :
    ∃ seed < n, largestFamily ok n = (family ok n seed).length := by
  obtain ⟨k, hk⟩ : ∃ k, min n maxSeeds = k + 1 :=
    Nat.exists_eq_succ_of_ne_zero (by simp only [maxSeeds]; omega)
  unfold largestFamily
  rw [hk, List.range_succ_eq_map, List.foldl_cons, if_neg (by omega), Nat.zero_max]
  rcases foldl_best n (fun seed => (family ok n seed).length) ((List.range k).map Nat.succ)
    (family ok n 0).length with heq | ⟨seed, hseed, heq⟩
  · exact ⟨0, h, heq⟩
  · obtain ⟨i, hi, rfl⟩ := List.mem_map.mp hseed
    have := List.mem_range.mp hi
    exact ⟨i.succ, by omega, heq⟩

theorem largestFamily_zero (ok : Nat → Nat → Bool) : largestFamily ok 0 = 0 := by
  simp [largestFamily]

/-- Families look at numbers below `n` only. -/
theorem foldl_grow_congr {ok ok' : Nat → Nat → Bool} {n : Nat}
    (same : ∀ i < n, ∀ j < n, ok i j = ok' i j) : ∀ js family : List Nat, (∀ j ∈ js, j < n) →
      (∀ m ∈ family, m < n) → js.foldl (grow ok) family = js.foldl (grow ok') family
  | [], _, _, _ => rfl
  | j :: js, members, hjs, hm => by
    have hj := hjs j List.mem_cons_self
    have all : members.all (fun m => ok m j) = members.all fun m => ok' m j := by
      rw [Bool.eq_iff_iff, List.all_eq_true, List.all_eq_true]
      exact forall₂_congr fun m hm' => by rw [same m (hm m hm') j hj]
    have step : grow ok members j = grow ok' members j := by
      unfold grow
      rw [all]
    rw [List.foldl_cons, List.foldl_cons, step]
    refine foldl_grow_congr same js _ (fun i hi => hjs i (List.mem_cons_of_mem _ hi)) ?_
    intro m h
    unfold grow at h
    split at h
    · rcases List.mem_cons.mp h with rfl | h
      · exact hj
      · exact hm m h
    · exact hm m h

theorem largestFamily_congr {ok ok' : Nat → Nat → Bool} {n : Nat}
    (same : ∀ i < n, ∀ j < n, ok i j = ok' i j) : largestFamily ok n = largestFamily ok' n := by
  have grown : ∀ seed ∈ List.range (min n maxSeeds), family ok n seed = family ok' n seed := by
    intro seed hseed
    have := List.mem_range.mp hseed
    refine foldl_grow_congr same _ _ (fun j hj => ?_) fun m hm => ?_
    · exact List.mem_range.mp (List.mem_filter.mp hj).1
    · rw [List.mem_singleton.mp hm]
      omega
  unfold largestFamily
  exact List.foldl_ext _ _ _ fun best seed hseed => by rw [grown seed hseed]

end Growing

/-! ## 3. Families of trails

Places stand for trails, so equal trails at two places count twice. -/

/-- Trails of a list, by their places, that are pairwise compatible. -/
def IsFamily (ts : List Trail) (s : Finset (Fin ts.length)) : Prop :=
  ∀ i ∈ s, ∀ j ∈ s, i ≠ j → compatible ts[i] ts[j] = true

/-- No other trail of the list can be added to the family. -/
structure IsMaximalFamily (ts : List Trail) (s : Finset (Fin ts.length)) : Prop where
  family : IsFamily ts s
  maximal : ∀ j, j ∉ s → ∃ i ∈ s, compatible ts[i] ts[j] = false

namespace IsMaximalFamily

variable {ts : List Trail} {s : Finset (Fin ts.length)}

theorem card_eq_zero_iff (h : IsMaximalFamily ts s) : s.card = 0 ↔ ts = [] := by
  constructor
  · intro none
    obtain rfl := Finset.card_eq_zero.mp none
    refine List.length_eq_zero_iff.mp (Nat.eq_zero_of_not_pos fun some => ?_)
    obtain ⟨i, hi, -⟩ := h.maximal ⟨0, some⟩ (Finset.notMem_empty _)
    exact Finset.notMem_empty i hi
  · rintro rfl
    exact Nat.le_zero.mp (Finset.card_le_univ s)

theorem card_eq_length_iff (h : IsMaximalFamily ts s) :
    s.card = ts.length ↔ ∀ i j : Fin ts.length, i ≠ j → compatible ts[i] ts[j] = true := by
  have every : s.card = ts.length ↔ s = Finset.univ := by
    rw [← Finset.card_eq_iff_eq_univ, Fintype.card_fin]
  rw [every]
  constructor
  · rintro rfl i j
    exact h.family i (Finset.mem_univ i) j (Finset.mem_univ j)
  · intro all
    refine Finset.eq_univ_of_forall fun j => Decidable.byContradiction fun hj => ?_
    obtain ⟨i, hi, hno⟩ := h.maximal j hj
    rw [all i j fun e => hj (e ▸ hi)] at hno
    exact Bool.noConfusion hno

end IsMaximalFamily

/-- Whether the trails at two places of a list are compatible. -/
def fit (ts : List Trail) (i j : Nat) : Bool := compatible (ts.getD i .empty) (ts.getD j .empty)

theorem fit_eq (ts : List Trail) (i j : Fin ts.length) : fit ts i j = compatible ts[i] ts[j] := by
  simp [fit]

theorem fit_comm {ts : List Trail} (proper : ∀ t ∈ ts, t.IsProper) (i j : Nat) :
    fit ts i j = fit ts j i := by
  have trail : ∀ i, (ts.getD i .empty).IsProper := by
    intro i
    rw [List.getD_eq_getElem?_getD]
    cases h : ts[i]? with
    | none => simp [Trail.IsProper, requirements, Trail.empty, Trail.entries]
    | some t => exact proper t (List.mem_of_getElem? h)
  exact compatible_comm (trail i) (trail j)

/-- Places that are full are a family of trails. -/
theorem IsFull.exists_isMaximalFamily {ts : List Trail} (proper : ∀ t ∈ ts, t.IsProper)
    {places : List Nat} (h : IsFull (fit ts) ts.length places) :
    ∃ s : Finset (Fin ts.length), IsMaximalFamily ts s ∧ s.card = places.length := by
  have lt : ∀ i ∈ places.toFinset, i < ts.length := fun i hi => h.lt i (List.mem_toFinset.mp hi)
  have mem : ∀ i : Fin ts.length, i ∈ places.toFinset.attachFin lt ↔ (i : Nat) ∈ places :=
    fun i => (Finset.mem_attachFin lt).trans List.mem_toFinset
  refine ⟨places.toFinset.attachFin lt, ⟨fun i hi j hj hne => ?_, fun j hj => ?_⟩, ?_⟩
  · -- Each pair was compared one way round when the later one came.
    have turned : places.Pairwise (flip fun i j => i ≠ j → fit ts i j = true) :=
      h.pairwise.imp fun ok => show _ → _ from fun _ => ok
    have once : places.Pairwise fun i j => i ≠ j → fit ts i j = true :=
      h.pairwise.imp fun ok _ => by rwa [fit_comm proper]
    rw [← fit_eq]
    exact once.forall_of_forall_of_flip (fun _ _ ne => absurd rfl ne) turned ((mem i).mp hi)
      ((mem j).mp hj) fun e => hne (Fin.ext e)
  · rw [mem] at hj
    obtain ⟨m, hm, hno⟩ := (h.full j j.isLt).resolve_left hj
    exact ⟨⟨m, h.lt m hm⟩, (mem _).mpr hm, by rw [← fit_eq]; exact hno⟩
  · rw [Finset.card_attachFin, List.toFinset_card_of_nodup h.nodup]

/-- The largest family found among trails is a maximal one. -/
theorem exists_isMaximalFamily {ts : List Trail} (proper : ∀ t ∈ ts, t.IsProper) :
    ∃ s : Finset (Fin ts.length),
      IsMaximalFamily ts s ∧ largestFamily (fit ts) ts.length = s.card := by
  rcases Nat.eq_zero_or_pos ts.length with none | some
  · refine ⟨∅, ⟨by simp [IsFamily], fun j => ?_⟩, ?_⟩
    · exact absurd j.isLt (by omega)
    · rw [none, largestFamily_zero, Finset.card_empty]
  · obtain ⟨seed, hseed, heq⟩ := exists_largestFamily_eq (fit ts) some
    obtain ⟨s, hs, hcard⟩ := (isFull_family (fit ts) hseed).exists_isMaximalFamily proper
    exact ⟨s, hs, by rw [heq, hcard]⟩

/-! ## 4. The tables

Most comparisons are made once and looked up from then on.  Answers are found by places, and each
lookup is compared with the question that it stands for. -/

/-- Series of places agree if the requirements at these places overlap. -/
theorem agree_places {ts : List Trail} {t u : Trail} (ht : t ∈ ts) (hu : u ∈ ts) :
    agree (Table.of overlap (ts.map requirements).flatten).answer
      (Series.of (Table.of overlap (ts.map requirements).flatten) (requirements t)).places
      (Series.of (Table.of overlap (ts.map requirements).flatten) (requirements u)).places =
        compatible t u := by
  have mem : ∀ {t : Trail}, t ∈ ts → ∀ g ∈ requirements t, g ∈ (ts.map requirements).flatten :=
    fun ht g hg => List.mem_flatten.mpr ⟨_, List.mem_map_of_mem ht, hg⟩
  exact agree_congr fun g hg o ho => Table.answer_place (mem ht g hg) (mem hu o ho)

/-- **The score is that of asking each time.**  Requirements and series are looked up by their
places in a table, and two trails by the smaller place first; the answers are the same. -/
theorem ofTrails_eq {ts : List Trail} (proper : ∀ t ∈ ts, t.IsProper) :
    ofTrails ts = largestFamily (fit ts) ts.length := by
  unfold ofTrails
  simp only
  have asked : ∀ i (hi : i < ts.length) j (hj : j < ts.length),
      fit ts i j = compatible ts[i] ts[j] := fun i hi j hj => fit_eq ts ⟨i, hi⟩ ⟨j, hj⟩
  refine largestFamily_congr fun i hi j hj => ?_
  have hmin : min i j < ts.length := by omega
  have hmax : max i j < ts.length := by omega
  have ordered : fit ts (min i j) (max i j) = fit ts i j := by
    rcases Nat.le_total i j with h | h
    · rw [Nat.min_eq_left h, Nat.max_eq_right h]
    · rw [Nat.min_eq_right h, Nat.max_eq_left h, fit_comm proper]
  have mem : ∀ {t : Trail}, t ∈ ts → Series.of (Table.of overlap (ts.map requirements).flatten)
      (requirements t) ∈ (ts.map requirements).map
        (Series.of (Table.of overlap (ts.map requirements).flatten)) :=
    fun ht => List.mem_map_of_mem (List.mem_map_of_mem ht)
  rw [← ordered, asked _ hmin _ hmax,
    ← agree_places (List.getElem_mem hmin) (List.getElem_mem hmax)]
  simp only [Array.getD, List.size_toArray, List.length_map, hmin, hmax, dif_pos,
    Array.getInternal_eq_getElem, List.getElem_toArray, List.getElem_map]
  exact Table.answer_place (mem (List.getElem_mem hmin)) (mem (List.getElem_mem hmax))

/-! ## 5. The score -/

/-- A pattern that is unsafe although the search came to its end has more pairwise compatible
trails than are allowed. -/
theorem exists_isFamily_of_not_safe {source : Bytes} {checked : Pattern} {r : Search.Result}
    {maxBacktracks : Int} (proper : ∀ t ∈ r.trails, t.IsProper)
    (status : (Report.aggregate source checked r maxBacktracks).status = .ok)
    (verdict : (Report.aggregate source checked r maxBacktracks).safe = false) :
    ∃ s : Finset (Fin (Report.aggregate source checked r maxBacktracks).trails.length),
      IsFamily _ s ∧ maxBacktracks < s.card := by
  have left : ∀ t ∈ dedupTrails [] r.trails, t.IsProper := fun t ht =>
    proper t ((dedupTrails_sublist _ _).subset ht)
  obtain ⟨s, hs, heq⟩ := exists_isMaximalFamily left
  rw [← ofTrails_eq left] at heq
  have status : r.status = .ok := status
  have verdict : (r.status == .ok && decide
      ((Estimate.value (if r.status = .infiniteLoop then .infinite
        else .trails (ofTrails (dedupTrails [] r.trails))) : Int) ≤ maxBacktracks)) = false :=
    verdict
  rw [status, if_neg (by decide), Estimate.value, heq] at verdict
  have verdict : decide ((s.card : Int) ≤ maxBacktracks) = false := verdict
  exact ⟨s, hs.family, Int.not_le.mp (of_decide_eq_false verdict)⟩

/-- **The score is the size of a family.**  Some trails of the list are pairwise compatible, no
other can be added, and the score is their number.  It is zero for no trails only, and all of them
are counted if and only if they are pairwise compatible.  Compatibility is symmetric, so the tables
of `ofTrails`, which are asked for the smaller place first, answer as comparing the trails each time
would.  A search that came to its end is reported unsafe only if more trails than allowed are
pairwise compatible. -/
theorem ofTrails_isFamily {ts : List Trail} (proper : ∀ t ∈ ts, t.IsProper) :
    (∃ s : Finset (Fin ts.length), IsMaximalFamily ts s ∧ ofTrails ts = s.card) ∧
    (ofTrails ts = 0 ↔ ts = []) ∧
    (ofTrails ts = ts.length ↔ ∀ i j : Fin ts.length, i ≠ j → compatible ts[i] ts[j] = true) ∧
    (∀ t u : Trail, t.IsProper → u.IsProper → compatible t u = compatible u t) ∧
    ofTrails ts =
      largestFamily (fun i j => compatible (ts.getD i .empty) (ts.getD j .empty)) ts.length ∧
    ∀ (source : Bytes) (checked : Pattern) (r : Search.Result) (maxBacktracks : Int),
      r.trails = ts → (Report.aggregate source checked r maxBacktracks).status = .ok →
        (Report.aggregate source checked r maxBacktracks).safe = false →
          ∃ s : Finset (Fin (Report.aggregate source checked r maxBacktracks).trails.length),
            IsFamily _ s ∧ maxBacktracks < s.card := by
  obtain ⟨s, hs, heq⟩ := exists_isMaximalFamily proper
  rw [← ofTrails_eq proper] at heq
  refine ⟨⟨s, hs, heq⟩, ?_, ?_, fun t u => compatible_comm, ofTrails_eq proper, ?_⟩
  · rw [heq]
    exact hs.card_eq_zero_iff
  · rw [heq]
    exact hs.card_eq_length_iff
  · rintro source checked r maxBacktracks rfl status verdict
    exact exists_isFamily_of_not_safe proper status verdict

/-- `[a]`, `[b]` and `[a-b]` make families of two trails, which is more than one. -/
theorem ofTrails_isFamily_of_three : ∃ ts : List Trail, (∀ t ∈ ts, t.IsProper) ∧ ts.length = 3 ∧
    ofTrails ts ≠ 0 ∧ ofTrails ts ≠ 3 ∧
    ∃ s : Finset (Fin
        (Report.aggregate [] ⟨[], {}, .sequence ⟨0, 0, 0⟩ [], 0⟩ ⟨ts, .ok, 0⟩ 1).trails.length),
      IsFamily _ s ∧ (1 : Int) < s.card := by
  let trail (lo hi : Int) : Trail :=
    .ofEntries [⟨⟨false, ⟨[⟨lo, hi⟩]⟩, []⟩, ⟨0, ⟨lo, hi⟩, [], []⟩, ⟨0, ⟨lo, hi⟩, [], []⟩⟩]
  have proper : ∀ t ∈ [trail 0x61 0x61, trail 0x62 0x62, trail 0x61 0x62], t.IsProper := by
    have set : ∀ lo hi : Int, lo ≤ hi ∧ 0 ≤ lo ∧ hi ≤ 0x10FFFF →
        (CodePoint.Set.Proper ⟨[⟨lo, hi⟩]⟩) := fun lo hi h =>
      ⟨⟨by simp [h.1], List.pairwise_singleton _ _⟩, by simp [CodePoint.Within, h.2]⟩
    have one : ∀ lo hi : Int, lo ≤ hi ∧ 0 ≤ lo ∧ hi ≤ 0x10FFFF → (trail lo hi).IsProper := by
      intro lo hi h g hg
      obtain rfl : g = ⟨false, ⟨[⟨lo, hi⟩]⟩, []⟩ := List.mem_singleton.mp hg
      exact Requirement.proper_ofSet (set lo hi h) false
    simp only [List.mem_cons, List.not_mem_nil, or_false]
    rintro t (rfl | rfl | rfl) <;> exact one _ _ (by decide)
  obtain ⟨-, zero, three, -, -, report⟩ := ofTrails_isFamily proper
  refine ⟨_, proper, rfl, mt zero.mp (by simp), fun all => ?_, report _ _ _ _ rfl rfl ?_⟩
  · have := three.mp all ⟨0, by decide⟩ ⟨1, by decide⟩ (by decide)
    revert this
    decide +kernel
  · decide +kernel

end Score

end Backtrack
