/-
# What the reader of tokens promises

The tree is built from lexemes, and whatever holds of every tree holds because of something
that holds of every lexeme.  This file collects those facts, for all sources and flags:

* a character given by a leaf is a character, however it was written (`le_of_readsChar`);
* a property that is read has a table (`known_of_readsProperty`);
* a count asks for no more than it allows (`ordered_of_count?`);
* the members of a class have numbers of their own (`Members`);
* a lexeme that makes a node introduces at least one number (`Lexer.IsSound`).

`isSound_of_mem_lexemes` puts them together.
-/
import Backtrack.Proofs.Pattern.Bounds
import Backtrack.Proofs.Pattern.Lexemes
import Backtrack.Proofs.Requirements
import Backtrack.Proofs.Text.Readback

namespace Backtrack

open CodePoint (Bounded)

/-! ## 1. Bytes and numbers -/

theorem Ascii.hexValue?_lt {b : UInt8} {n : Nat} (h : hexValue? b = some n) : n < 16 := by
  unfold hexValue? isDigit at h
  simp only [Bool.and_eq_true, decide_eq_true_eq, UInt8.le_iff_toNat_le, UInt8.reduceToNat] at h
  split at h
  · have := Option.some.inj h
    omega
  · split at h
    · have := Option.some.inj h
      omega
    · split at h
      · have := Option.some.inj h
        omega
      · simp at h

theorem Ascii.foldl_hexValue?_lt : ∀ (digits : Bytes) (start : Option Nat) {v : Nat},
    digits.foldl (fun n b => n.bind fun n => (hexValue? b).map (n * 16 + ·)) start = some v →
      ∃ n, start = some n ∧ v < (n + 1) * Nat.pow 16 digits.length
  | [], start, v, h => ⟨v, h, by simp⟩
  | b :: digits, start, v, h => by
    obtain ⟨m, hm, hv⟩ := foldl_hexValue?_lt digits _ h
    obtain ⟨n, hn, hb⟩ := Option.bind_eq_some_iff.mp hm
    obtain ⟨d, hd, rfl⟩ := Option.map_eq_some_iff.mp hb
    refine ⟨n, hn, Nat.lt_of_lt_of_le hv ?_⟩
    have := hexValue?_lt hd
    calc (n * 16 + d + 1) * Nat.pow 16 digits.length
        ≤ ((n + 1) * 16) * Nat.pow 16 digits.length := Nat.mul_le_mul_right _ (by omega)
      _ = (n + 1) * (Nat.pow 16 digits.length * 16) := by rw [Nat.mul_assoc, Nat.mul_comm 16]

/-- A number of so many hexadecimal digits is less than that power of sixteen. -/
theorem Ascii.hexNumber?_lt {digits : Bytes} {v : Nat} (h : hexNumber? digits = some v) :
    v < Nat.pow 16 digits.length := by
  unfold hexNumber? at h
  split at h
  · simp at h
  · obtain ⟨n, hn, hv⟩ := foldl_hexValue?_lt digits (some 0) h
    obtain rfl := Option.some.inj hn
    simpa using hv

/-- A count asks for no more than it allows. -/
def Count.IsOrdered (c : Count) : Prop := ∀ most, c.max = some most → c.min ≤ most

namespace Lexer

/-! ## 2. Escapes -/

theorem hexDigits?_lt {n : Nat} {s : Bytes} {v : Nat} (h : hexDigits? n s = some v) :
    v < Nat.pow 16 n := by
  unfold hexDigits? at h
  split at h
  · simp at h
  · have := Ascii.hexNumber?_lt h
    rwa [List.length_take, Nat.min_eq_left (by omega)] at this

theorem octal_le : ∀ (digits value : Nat) (s : Bytes), value ≤ 0o377 →
    (octal digits value s).1 ≤ 0o377
  | 0, _, _, h => h
  | _ + 1, _, [], h => h
  | n + 1, v, b :: rest, h => by
    unfold octal
    split
    · rename_i hb
      simp only [Bool.and_eq_true, decide_eq_true_eq] at hb
      exact octal_le n _ rest hb.2
    · exact h

theorem controlValue_le {c : Nat} (h : c ≤ 0x10FFFF) : controlValue c ≤ 0x10FFFF := by
  unfold controlValue
  split
  · decide
  split
  · decide
  split
  · decide
  split
  · decide
  split
  · decide
  · exact h

theorem le_of_readsNumber {c : Nat} {rest : Bytes} {r : Nat × Nat} (h : ReadsNumber c rest r) :
    r.1 ≤ 0x10FFFF := by
  cases h with
  | byte digits | unit digits =>
    exact Nat.le_of_lt (Nat.lt_trans (hexDigits?_lt digits) (by decide))
  | braces _ _ le => exact le
  | control =>
    simp only
    omega
  | nul => decide

/-- **A character given by an escape is a character**, however the escape is written. -/
theorem le_of_readsChar {b : UInt8} {rest : Bytes} {r : Nat × Nat} (h : ReadsChar b rest r) :
    r.1 ≤ 0x10FFFF := by
  cases h with
  | number hn =>
    have := le_of_readsNumber hn
    exact this
  | octal => exact Nat.le_trans (octal_le 3 0 _ (by decide)) (by decide)
  | plain => exact controlValue_le (Utf8.decode_le b rest)

/-- A property that is read has a table. -/
theorem known_of_readsProperty {unicode : Bool} {b : UInt8} {rest : Bytes}
    {p : PropertyEscape × Nat} (h : ReadsProperty unicode b rest p) :
    (Unicode.lookup? p.1.name).isSome = true := by
  cases h with
  | mk _ known => exact known

/-! ## 3. Classes -/

/-- The members of a class so far: sound, and numbered from one to at most `nodes`, no two of
them alike. -/
structure Members (nodes : Nat) (k : CharClass) : Prop where
  sound : Shape.IsSound (.charClass k)
  distinct : (k.escapes.map (·.1.id) ++ k.properties.map (·.1.id)).Nodup
  numbered : ∀ i ∈ k.escapes.map (·.1.id) ++ k.properties.map (·.1.id), 1 ≤ i ∧ i ≤ nodes

/-- A member is a character, or it has a table. -/
def Member.IsSound : Member → Prop
  | .char c => c ≤ 0x10FFFF
  | .escape _ => True
  | .property p => (Unicode.lookup? p.name).isSome = true

theorem isSound_of_member {unicode : Bool} {b : UInt8} {rest : Bytes} {m : Member × Nat}
    (h : member unicode b rest = .ok m) : m.1.IsSound := by
  cases readsMember_of_member h with
  | char => exact Utf8.decode_le b rest
  | classEscape => trivial
  | property hp => exact known_of_readsProperty hp
  | backspace => exact (by decide : 0x08 ≤ 0x10FFFF)
  | minus => exact (by decide : 0x2D ≤ 0x10FFFF)
  | charEscape hc => exact le_of_readsChar hc

theorem Members.start (negated : Bool) : Members 0 ⟨negated, [], [], []⟩ :=
  ⟨⟨fun r hr => absurd hr (by simp), by simp⟩, by simp, by simp⟩

/-- One more range of characters. -/
theorem Members.addRange {nodes : Nat} {k : CharClass} (h : Members nodes k) {c d : Nat}
    (hc : c ≤ 0x10FFFF) (hd : d ≤ 0x10FFFF) :
    Members nodes { k with ranges := k.ranges ++ [⟨c, d⟩] } := by
  refine ⟨⟨?_, h.sound.2⟩, h.distinct, h.numbered⟩
  intro r hr
  rcases List.mem_append.mp hr with hr | hr
  · exact h.sound.1 r hr
  · rw [List.mem_singleton.mp hr]
    simp only
    omega

/-- A number may be given away without being used. -/
theorem Members.skip {nodes : Nat} {k : CharClass} (h : Members nodes k) :
    Members (nodes + 1) k :=
  ⟨h.sound, h.distinct, fun i hi => ⟨(h.numbered i hi).1, Nat.le_succ_of_le (h.numbered i hi).2⟩⟩

theorem Members.fresh {nodes : Nat} {k : CharClass} (h : Members nodes k) :
    nodes + 1 ∉ k.escapes.map (·.1.id) ++ k.properties.map (·.1.id) := by
  intro hi
  have := (h.numbered _ hi).2
  omega

/-- One more escape, with the next number. -/
theorem Members.addEscape {nodes : Nat} {k : CharClass} (h : Members nodes k) (pos w : Nat)
    (e : ClassEscape) :
    Members (nodes + 1) { k with escapes := k.escapes ++ [(siteIn nodes pos w, e)] } := by
  have perm : ((k.escapes ++ [(siteIn nodes pos w, e)]).map (·.1.id) ++
      k.properties.map (·.1.id)).Perm
        ((nodes + 1) :: (k.escapes.map (·.1.id) ++ k.properties.map (·.1.id))) := by
    rw [List.map_append, List.append_assoc]
    exact List.perm_middle
  refine ⟨h.sound, perm.nodup_iff.mpr (List.nodup_cons.mpr ⟨h.fresh, h.distinct⟩), ?_⟩
  intro i hi
  rcases List.mem_cons.mp (perm.mem_iff.mp hi) with rfl | hi
  · omega
  · exact h.skip.numbered i hi

/-- One more property, with the next number. -/
theorem Members.addProperty {nodes : Nat} {k : CharClass} (h : Members nodes k) (pos w : Nat)
    {p : PropertyEscape} (hp : (Unicode.lookup? p.name).isSome = true) :
    Members (nodes + 1) { k with properties := k.properties ++ [(siteIn nodes pos w, p)] } := by
  have perm : (k.escapes.map (·.1.id) ++
      (k.properties ++ [(siteIn nodes pos w, p)]).map (·.1.id)).Perm
        ((nodes + 1) :: (k.escapes.map (·.1.id) ++ k.properties.map (·.1.id))) := by
    rw [List.map_append, ← List.append_assoc]
    exact List.perm_append_singleton _ _
  refine ⟨⟨h.sound.1, ?_⟩,
    perm.nodup_iff.mpr (List.nodup_cons.mpr ⟨h.fresh, h.distinct⟩), ?_⟩
  · intro q hq
    rcases List.mem_append.mp hq with hq | hq
    · exact h.sound.2 q hq
    · rw [List.mem_singleton.mp hq]
      exact hp
  · intro i hi
    rcases List.mem_cons.mp (perm.mem_iff.mp hi) with rfl | hi
    · omega
    · exact h.skip.numbered i hi

/-- **A class that is read has sound members with numbers of their own.** -/
theorem members_of_readsMembers {unicode : Bool} {pos nodes : Nat} {k : CharClass} {s : Bytes}
    {r : CharClass × Nat × Nat} (h : ReadsMembers unicode pos nodes k s r)
    (hk : Members nodes k) : Members r.2.1 r.1 := by
  induction h with
  | closes => exact hk
  | escape _ _ _ ih => exact ih (hk.addEscape _ _ _)
  | property _ hm _ ih => exact ih (hk.addProperty _ _ (isSound_of_member hm))
  | char _ hm _ ih => exact ih (hk.addRange (isSound_of_member hm) (isSound_of_member hm))
  | noRange _ hm _ ih =>
    exact ih (hk.addRange (isSound_of_member hm) (isSound_of_member hm)).skip
  | range _ hm _ _ hd _ _ ih =>
    exact ih (hk.addRange (isSound_of_member hm) (isSound_of_member hd))

theorem members_of_charClass {unicode : Bool} {pos : Nat} {rest : Bytes}
    {r : CharClass × Nat × Nat} (h : charClass unicode pos rest = .ok r) :
    Members r.2.1 r.1 := by
  unfold charClass at h
  split at h
  · exact members_of_readsMembers (readsMembers_of_classBody h) (Members.start true)
  · exact members_of_readsMembers (readsMembers_of_classBody h) (Members.start false)

/-! ## 4. Counts -/

theorem ordered_of_count? {b : UInt8} {rest : Bytes} {c : Count} {w : Nat}
    (h : count? b rest = .ok (some (c, w))) : c.IsOrdered := by
  obtain ⟨v, written, -, -⟩ := count?_eq_some.mp h
  exact fun most hm => (written.most hm).1

/-! ## 5. Lexemes -/

/-- A token that makes a node introduces a number for it; the members of a class have the
numbers before that of the class. -/
def IsSound (nodes : Nat) : Token → Prop
  | .leaf (.charClass k) => ∃ n, n + 1 = nodes ∧ Members n k
  | .leaf s => 1 ≤ nodes ∧ s.IsSound
  | .anchor _ => 1 ≤ nodes
  | .reference _ _ => 1 ≤ nodes
  | .count c => 1 ≤ nodes ∧ c.IsOrdered
  | _ => True

theorem isSound_of_readsEscape {flags : Flags} {captures : Nat} {e : UInt8} {more : Bytes}
    {r : Reading} (h : ReadsEscape flags captures e more r) : IsSound r.nodes r.token := by
  cases h with
  | classEscape => exact ⟨Nat.le_refl 1, trivial⟩
  | wordBoundary | nonWordBoundary | name | number => exact Nat.le_refl 1
  | property hp => exact ⟨Nat.le_refl 1, known_of_readsProperty hp⟩
  | char hc => exact ⟨Nat.le_refl 1, le_of_readsChar hc⟩

theorem isSound_of_lexeme {flags : Flags} {captures pos : Nat} {names : List Bytes}
    {before : Before} {b : UInt8} {rest : Bytes} {r : Reading}
    (h : lexeme flags captures names pos before b rest = .ok r) : IsSound r.nodes r.token := by
  cases readsLexeme_of_lexeme h with
  | count hc => exact ⟨Nat.le_refl 1, ordered_of_count? hc⟩
  | opening | closing | bar => trivial
  | charClass _ hk => exact ⟨_, rfl, members_of_charClass hk⟩
  | dot => exact ⟨Nat.le_refl 1, trivial⟩
  | start | stop => exact Nat.le_refl 1
  | escape _ he => exact isSound_of_readsEscape he
  | char => exact ⟨Nat.le_refl 1, Utf8.decode_le _ _⟩

theorem isSound_of_mem_scan {flags : Flags} {captures pos : Nat} {names : List Bytes}
    {before : Before} {s : Bytes} :
    ∀ l ∈ (scan flags captures pos names before s).1, IsSound l.nodes l.token := by
  fun_induction scan flags captures pos names before s with
  | case1 | case2 => simp
  | case3 pos names before b rest r hr later ih =>
    intro l hl
    rcases List.mem_cons.mp hl with rfl | hl
    · exact isSound_of_lexeme hr
    · exact ih l hl

/-- **Every lexeme of a source is sound**, whether or not a fault ends them early.  What is read
is sound one lexeme at a time, so what comes later does not matter. -/
theorem isSound_of_mem_lexemes {flags : Flags} {source : Bytes} :
    ∀ l ∈ (lexemes flags source).1, IsSound l.nodes l.token :=
  isSound_of_mem_scan

end Lexer

end Backtrack
