/-
# What is read can be written

The other way round: whatever tokens a source is cut into, they can be written again
(`Lexer.readable_of_scan`).  They count only what can be repeated, and no two groups have the same
name.  The one exception is the reference with an empty name, which refers to no group.
-/
import Backtrack.Proofs.Pattern.Legible
import Backtrack.Proofs.Pattern.Tokens

namespace Backtrack

/-- What was searched for does not come before. -/
theorem Ascii.not_mem_of_cut? {b : UInt8} {s before after : Bytes}
    (h : cut? b s = some (before, after)) : b ∉ before := by
  induction s generalizing before with
  | nil => simp [cut?] at h
  | cons x s ih =>
    rw [cut?] at h
    split at h
    · cases h
      simp
    · rename_i hx
      obtain ⟨p, hp, he⟩ := Option.map_eq_some_iff.mp h
      cases he
      rw [List.mem_cons, not_or]
      exact ⟨Ne.symm hx, ih hp⟩

/-- A class can be written with one more range. -/
theorem CharClass.IsLegible.addRange {unicode : Bool} {k : CharClass}
    (h : k.IsLegible unicode) {c d : Nat} (hcd : c ≤ d) (hd : d ≤ 0x10FFFF) :
    CharClass.IsLegible unicode { k with ranges := k.ranges ++ [⟨c, d⟩] } := by
  refine ⟨?_, h.properties⟩
  intro r hr
  rcases List.mem_append.mp hr with hr | hr
  · exact h.ranges r hr
  · rw [List.mem_singleton.mp hr, CodePoint.Range.IsLegible]
    simp only
    omega

namespace Lexer

/-! ## 1. What is read can be written -/

theorem isLegible_of_readsProperty {unicode : Bool} {b : UInt8} {rest : Bytes}
    {p : PropertyEscape × Nat} (h : ReadsProperty unicode b rest p) : p.1.IsLegible unicode := by
  cases h with
  | mk _ known => exact ⟨rfl, known⟩

/-- A member of a class can be written. -/
def Member.IsLegible (unicode : Bool) : Member → Prop
  | .char c => c ≤ 0x10FFFF
  | .escape _ => True
  | .property p => p.IsLegible unicode

theorem isLegible_of_member {unicode : Bool} {b : UInt8} {rest : Bytes} {m : Member × Nat}
    (h : member unicode b rest = .ok m) : m.1.IsLegible unicode := by
  cases readsMember_of_member h with
  | char => exact Utf8.decode_le b rest
  | classEscape => trivial
  | property hp => exact isLegible_of_readsProperty hp
  | backspace => exact (by decide : 0x08 ≤ 0x10FFFF)
  | minus => exact (by decide : 0x2D ≤ 0x10FFFF)
  | charEscape hc => exact le_of_readsChar hc

/-- **A class that is read can be written.** -/
theorem isLegible_of_readsMembers {unicode : Bool} {pos nodes : Nat} {k : CharClass} {s : Bytes}
    {r : CharClass × Nat × Nat} (h : ReadsMembers unicode pos nodes k s r)
    (hk : k.IsLegible unicode) : r.1.IsLegible unicode := by
  induction h with
  | closes => exact hk
  | escape _ _ _ ih => exact ih ⟨hk.ranges, hk.properties⟩
  | property _ hm _ ih =>
    refine ih ⟨hk.ranges, ?_⟩
    intro q hq
    rcases List.mem_append.mp hq with hq | hq
    · exact hk.properties q hq
    · rw [List.mem_singleton.mp hq]
      exact isLegible_of_member hm
  | char _ hm _ ih | noRange _ hm _ ih =>
    exact ih (hk.addRange (Nat.le_refl _) (isSound_of_member hm))
  | range _ _ _ _ hd le _ ih => exact ih (hk.addRange le (isSound_of_member hd))

theorem isLegible_of_charClass {unicode : Bool} {pos : Nat} {rest : Bytes}
    {r : CharClass × Nat × Nat} (h : charClass unicode pos rest = .ok r) :
    r.1.IsLegible unicode := by
  unfold charClass at h
  split at h
  · exact isLegible_of_readsMembers (readsMembers_of_classBody h) ⟨by simp, by simp⟩
  · exact isLegible_of_readsMembers (readsMembers_of_classBody h) ⟨by simp, by simp⟩

theorem isLegible_of_count? {b : UInt8} {rest : Bytes} {c : Count} {w : Nat}
    (h : count? b rest = .ok (some (c, w))) : c.IsLegible := by
  obtain ⟨v, written, -, -⟩ := count?_eq_some.mp h
  exact ⟨written.least_lt, fun _ hn => written.most hn⟩

theorem isLegible_of_opening {names : List Bytes} {rest name : Bytes} {kind : GroupKind} {w : Nat}
    (h : ReadsOpening names rest kind name w) :
    name = [] ∨ kind = .capture ∧ isGroupName name = true ∧ name ∉ names := by
  cases h with
  | sign | plain => exact .inl rfl
  | name _ _ _ proper new => exact .inr ⟨rfl, proper, new⟩

theorem isLegible_of_readsEscape {flags : Flags} {captures : Nat} {e : UInt8} {more : Bytes}
    {r : Reading} (h : ReadsEscape flags captures e more r) (hv : ¬ r.token = .reference 0 []) :
    r.token.IsLegible flags captures := by
  cases h with
  | classEscape | wordBoundary | nonWordBoundary => trivial
  | @name _ name _ closed =>
    cases name with
    | nil => exact absurd rfl hv
    | cons b name => exact Ascii.not_mem_of_cut? closed
  | property hp => exact isLegible_of_readsProperty hp
  | number _ _ value found =>
    refine ⟨Nat.one_le_iff_ne_zero.mpr ?_, found, (number?_eq_some.mp value).2⟩
    rintro rfl
    exact hv rfl
  | char hc => exact le_of_readsChar hc

/-- **A token that is read can be written**, the reference without a group aside.  What has been
read has a form in which it can be written, if not always the one that it was read in. -/
theorem isLegible_of_lexeme {flags : Flags} {captures pos : Nat} {names : List Bytes}
    {before : Before} {b : UInt8} {rest : Bytes} {r : Reading}
    (h : lexeme flags captures names pos before b rest = .ok r)
    (hv : ¬ r.token = .reference 0 []) : r.token.IsLegible flags captures := by
  cases readsLexeme_of_lexeme h with
  | count hc => exact isLegible_of_count? hc
  | opening _ ho =>
    rcases isLegible_of_opening ho with hn | ⟨hk, hn, -⟩
    · exact .inl hn
    · exact .inr ⟨hk, hn⟩
  | closing | bar | dot | start | stop => trivial
  | charClass _ hk => exact isLegible_of_charClass hk
  | escape _ he => exact isLegible_of_readsEscape he hv
  | char => exact Utf8.decode_le _ _

/-! ## 2. Neighbours and names -/

/-- A count is read only after what can be repeated, and a name that is taken is not read. -/
theorem before_of_lexeme {flags : Flags} {captures pos : Nat} {names : List Bytes}
    {before : Before} {b : UInt8} {rest : Bytes} {r : Reading}
    (h : lexeme flags captures names pos before b rest = .ok r) :
    (r.token.isCount = true → before = .repeatable) ∧ r.token.IsNew names := by
  cases readsLexeme_of_lexeme h with
  | count => exact ⟨fun _ => rfl, by simp [Token.IsNew, Token.name?]⟩
  | @opening _ name kind _ _ ho =>
    refine ⟨by simp [Token.isCount], fun n hn => ?_⟩
    rcases isLegible_of_opening ho with rfl | ⟨rfl, -, new⟩
    · simp [Token.name?] at hn
    · cases name with
      | nil => simp [Token.name?] at hn
      | cons b name => exact Option.some.inj hn ▸ new
  | escape _ he =>
    cases he with
    | _ => exact ⟨by simp [Token.isCount], by simp [Token.IsNew, Token.name?]⟩
  | _ => exact ⟨by simp [Token.isCount], by simp [Token.IsNew, Token.name?]⟩

/-- What the tokens of a source have in common, the names in `names` being taken. -/
structure Readable (flags : Flags) (captures : Nat) (names : List Bytes) (before : Before)
    (ts : List Token) : Prop where
  legible : ∀ t ∈ ts, t ≠ .reference 0 [] → t.IsLegible flags captures
  first : ∀ t, ts.head? = some t → t.isCount = true → before = .repeatable
  chain : ts.IsChain Token.CountsAfter
  distinct : (ts.filterMap Token.name?).Nodup
  new : ∀ n ∈ ts.filterMap Token.name?, n ∉ names

/-- **The tokens of a source are readable**, when no fault ends them early. -/
theorem readable_of_scan {flags : Flags} {captures pos : Nat} {names : List Bytes}
    {before : Before} {s : Bytes} {ls : List Lexeme}
    (h : scan flags captures pos names before s = (ls, none)) :
    Readable flags captures names before (ls.map (·.token)) := by
  fun_induction scan flags captures pos names before s generalizing ls with
  | case1 =>
    cases h
    exact ⟨by simp, by simp, by simp, by simp, by simp⟩
  | case2 => cases h
  | case3 pos names before b rest r hr later =>
    rename_i ih
    obtain ⟨rfl, hnone⟩ := Prod.mk.inj h
    obtain ⟨legible, first, chain, distinct, new⟩ := @ih later.1 (Prod.ext rfl hnone)
    obtain ⟨hc, hn⟩ := before_of_lexeme hr
    rw [namesAfter_eq] at new
    rw [List.map_cons]
    refine ⟨List.forall_mem_cons.mpr ⟨isLegible_of_lexeme hr, legible⟩, ?_, chain.cons first, ?_, ?_⟩
    · intro t ht
      obtain rfl := Option.some.inj ht
      exact hc
    · rw [Token.filterMap_name?_cons, List.nodup_append]
      refine ⟨by cases r.token.name? <;> simp, distinct, ?_⟩
      rintro n hn m hm rfl
      exact new n hm (List.mem_append_left _ hn)
    · rw [Token.filterMap_name?_cons]
      intro n hm
      rcases List.mem_append.mp hm with hm | hm
      · exact hn n (by simpa using hm)
      · exact fun hk => new n hm (List.mem_append_right _ hk)

end Lexer

end Backtrack
