/-
# The groups of a source are counted right

How many groups a source opens is found out before any token is read, by a walk over its bytes
that knows nothing of tokens.  `Lexer.countCapturesFrom_scan` says that the walk finds as many as
there are tokens that open one.  The walk jumps over whatever is *quiet*, and apart from openings
and classes all of a token after its first byte is.

A reference by name is a case of its own: its name could hold anything, and only that some group
has the name makes it quiet.
-/
import Backtrack.Proofs.Pattern.Legible
import Backtrack.Proofs.Pattern.Tokens

namespace Backtrack

namespace Lexer

/-! ## 1. Quiet bytes

Four bytes matter to the walk: a backslash, which hides the next byte, the brackets of a class,
and a parenthesis that opens a group.  All other bytes may be skipped in any number. -/

/-- A byte that changes nothing about how many groups a source opens. -/
def isQuiet (b : UInt8) : Bool :=
  b ≠ Ascii.backslash && b ≠ Ascii.openBracket && b ≠ Ascii.closeBracket && b ≠ Ascii.openParen

theorem countCapturesFrom_quiet {b : UInt8} (h : isQuiet b = true) (inClass : Bool) (s : Bytes) :
    countCapturesFrom inClass (b :: s) = countCapturesFrom inClass s := by
  simp only [isQuiet, ne_eq, Bool.and_eq_true, decide_eq_true_eq] at h
  obtain ⟨⟨⟨h1, h2⟩, h3⟩, h4⟩ := h
  rw [countCapturesFrom]
  all_goals simp_all

/-- Quiet bytes may be skipped. -/
theorem countCapturesFrom_drop {s : Bytes} {w : Nat} (h : ∀ b ∈ s.take w, isQuiet b = true)
    (inClass : Bool) : countCapturesFrom inClass s = countCapturesFrom inClass (s.drop w) := by
  induction w generalizing s with
  | zero => rfl
  | succ w ih =>
    cases s with
    | nil => rfl
    | cons b s =>
      rw [List.take_succ_cons, List.forall_mem_cons] at h
      rw [countCapturesFrom_quiet h.1, List.drop_succ_cons]
      exact ih h.2

theorem countCapturesFrom_backslash (inClass : Bool) (e : UInt8) (s : Bytes) :
    countCapturesFrom inClass (Ascii.backslash :: e :: s) = countCapturesFrom inClass s := rfl

theorem countCapturesFrom_openBracket (inClass : Bool) (s : Bytes) :
    countCapturesFrom inClass (Ascii.openBracket :: s) = countCapturesFrom true s := rfl

theorem countCapturesFrom_closeBracket (inClass : Bool) (s : Bytes) :
    countCapturesFrom inClass (Ascii.closeBracket :: s) = countCapturesFrom false s := rfl

theorem countCapturesFrom_openParen (inClass : Bool) (s : Bytes) :
    countCapturesFrom inClass (Ascii.openParen :: s) =
      (if !inClass && opensCapture s then 1 else 0) + countCapturesFrom inClass s := rfl

theorem isQuiet_of_le {b : UInt8} (h : 0x80 ≤ b.toNat) : isQuiet b = true := by
  have apart : ∀ x : UInt8, x.toNat < 0x80 → b ≠ x := by
    rintro x hx rfl
    omega
  simp [isQuiet, apart _ (by decide : Ascii.backslash.toNat < 0x80),
    apart _ (by decide : Ascii.openBracket.toNat < 0x80),
    apart _ (by decide : Ascii.closeBracket.toNat < 0x80),
    apart _ (by decide : Ascii.openParen.toNat < 0x80)]

/-- The bytes of a character after its first one are quiet. -/
theorem isQuiet_of_decode (b : UInt8) (s : Bytes) :
    ∀ x ∈ s.take ((Utf8.decode b s).2 - 1), isQuiet x = true := by
  by_cases h : (Utf8.decode b s).1 < 0x80
  · rw [Utf8.decode_of_lt h]
    simp
  · intro x hx
    exact isQuiet_of_le (Utf8.le_of_decode (Nat.le_of_not_lt h) x (List.mem_cons_of_mem _ hx))

/-- A class of bytes is quiet if none of the four that are not belongs to it. -/
theorem isQuiet_of {p : UInt8 → Bool} (hp : p Ascii.backslash = false ∧ p Ascii.openBracket = false ∧
    p Ascii.closeBracket = false ∧ p Ascii.openParen = false) {b : UInt8} (h : p b = true) :
    isQuiet b = true := by
  have apart : ∀ x : UInt8, p x = false → b ≠ x := by
    rintro x hx rfl
    rw [h] at hx
    cases hx
  simp [isQuiet, apart _ hp.1, apart _ hp.2.1, apart _ hp.2.2.1, apart _ hp.2.2.2]

theorem isQuiet_of_isDigit {b : UInt8} (h : Ascii.isDigit b = true) : isQuiet b = true :=
  isQuiet_of (p := Ascii.isDigit) (by decide) h

theorem isQuiet_of_hexNumber? {digits : Bytes} {n : Nat} (h : Ascii.hexNumber? digits = some n) :
    ∀ b ∈ digits, isQuiet b = true := by
  have fold : ∀ (digits : Bytes) (start : Option Nat) {v : Nat},
      digits.foldl (fun n b => n.bind fun n => (Ascii.hexValue? b).map (n * 16 + ·)) start = some v →
        start.isSome = true ∧ ∀ b ∈ digits, isQuiet b = true := by
    intro digits
    induction digits with
    | nil =>
      intro start v h
      exact ⟨by simp_all, by simp⟩
    | cons b digits ih =>
      intro start v h
      obtain ⟨hs, hd⟩ := ih _ h
      obtain ⟨m, hm⟩ := Option.isSome_iff_exists.mp hs
      obtain ⟨n, hn, hb⟩ := Option.bind_eq_some_iff.mp hm
      obtain ⟨d, hd', -⟩ := Option.map_eq_some_iff.mp hb
      refine ⟨by simp [hn], List.forall_mem_cons.mpr ⟨?_, hd⟩⟩
      exact isQuiet_of (p := fun b => (Ascii.hexValue? b).isSome) (by decide) (by simp [hd'])
  unfold Ascii.hexNumber? at h
  split at h
  · simp
  · exact (fold _ _ h).2

theorem isQuiet_of_hexDigits? {n : Nat} {s : Bytes} {v : Nat} (h : hexDigits? n s = some v) :
    ∀ b ∈ s.take n, isQuiet b = true := by
  unfold hexDigits? at h
  split at h
  · simp at h
  · exact isQuiet_of_hexNumber? h

/-- The digits of an octal number are quiet, and there is at least one if the first byte is one. -/
theorem isQuiet_of_octal : ∀ (digits value : Nat) (s : Bytes),
    ∀ b ∈ s.take (octal digits value s).2, isQuiet b = true
  | 0, _, _ => by simp [octal]
  | _ + 1, _, [] => by simp [octal]
  | n + 1, v, b :: rest => by
    unfold octal
    split
    · rename_i hb
      rw [Bool.and_eq_true] at hb
      have digit : Ascii.isDigit b = true := by
        have := hb.1
        simp only [Ascii.isOctal, Ascii.isDigit, Bool.and_eq_true, decide_eq_true_eq,
          UInt8.le_iff_toNat_le, UInt8.reduceToNat] at this ⊢
        omega
      rw [List.take_succ_cons, List.forall_mem_cons]
      exact ⟨isQuiet_of_isDigit digit, isQuiet_of_octal n _ rest⟩
    · simp

/-- Bytes up to a quiet one are quiet if those before it are. -/
theorem isQuiet_of_cut? {c : UInt8} {s before after : Bytes}
    (h : Ascii.cut? c s = some (before, after)) (hb : ∀ b ∈ before, isQuiet b = true)
    (hc : isQuiet c = true) : ∀ b ∈ s.take (before.length + 1), isQuiet b = true := by
  obtain rfl := Ascii.cut?_eq_some h
  have : (before ++ c :: after).take (before.length + 1) = before ++ [c] := by
    simp [List.take_append]
  rw [this]
  intro b hm
  rcases List.mem_append.mp hm with hm | hm
  · exact hb b hm
  · rwa [List.mem_singleton.mp hm]

theorem isQuiet_of_readsNumber {c : Nat} {rest : Bytes} {r : Nat × Nat} (h : ReadsNumber c rest r) :
    1 ≤ r.2 ∧ ∀ b ∈ rest.take (r.2 - 1), isQuiet b = true := by
  cases h with
  | byte digits | unit digits => exact ⟨by simp, isQuiet_of_hexDigits? digits⟩
  | braces closed value =>
    refine ⟨by simp, List.forall_mem_cons.mpr ⟨by decide, ?_⟩⟩
    exact isQuiet_of_cut? closed (isQuiet_of_hexNumber? value) (by decide)
  | control letter =>
    refine ⟨by simp, List.forall_mem_singleton.mpr ?_⟩
    exact isQuiet_of (p := Ascii.isLetter) (by decide) letter
  | nul => simp

/-- A letter that gives a character by number is a byte of its own. -/
theorem lt_of_readsNumber {c : Nat} {rest : Bytes} {r : Nat × Nat} (h : ReadsNumber c rest r) :
    c < 0x80 := by
  cases h <;> decide

/-- **What is left of an escape after its letter is quiet.** -/
theorem isQuiet_of_readsChar {e : UInt8} {more : Bytes} {r : Nat × Nat} (h : ReadsChar e more r) :
    2 ≤ r.2 ∧ ∀ b ∈ more.take (r.2 - 2), isQuiet b = true := by
  have positive := (Utf8.width_decode e more).1
  cases h with
  | number hn =>
    rw [Utf8.decode_of_lt (lt_of_readsNumber hn)] at hn
    have := isQuiet_of_readsNumber hn
    exact ⟨by simp only; omega, this.2⟩
  | octal digit =>
    have digits := isQuiet_of_octal 3 0 (e :: more)
    have one : (octal 3 0 (e :: more)).2 = (octal 2 (0 * 8 + (e.toNat - 0x30)) more).2 + 1 := by
      have small : 0 * 8 + (e.toNat - 0x30) ≤ 0o377 := by
        have := e.toNat_lt
        omega
      rw [octal, digit, decide_eq_true small]
      rfl
    rw [one] at digits ⊢
    rw [List.take_succ_cons, List.forall_mem_cons] at digits
    exact ⟨by simp, digits.2⟩
  | plain => exact ⟨by simp only; omega, isQuiet_of_decode e more⟩

theorem isQuiet_of_readsProperty {unicode : Bool} {b : UInt8} {rest : Bytes}
    {p : PropertyEscape × Nat} (h : ReadsProperty unicode b rest p) :
    2 ≤ p.2 ∧ ∀ x ∈ rest.take (p.2 - 2), isQuiet x = true := by
  cases h with
  | mk closed known =>
    refine ⟨by simp, List.forall_mem_cons.mpr ⟨by decide, ?_⟩⟩
    refine isQuiet_of_cut? closed ?_ (by decide)
    intro x hx
    exact isQuiet_of (by decide) ((Bytes.ofString_toText_of_lookup? known).2 x hx)

/-- **A member of a class opens no group**, and the class goes on after it. -/
theorem countCapturesFrom_member {unicode : Bool} {b : UInt8} {s : Bytes} {m : Member} {w : Nat}
    (h : member unicode b s = .ok (m, w)) (hb : b ≠ Ascii.closeBracket) :
    1 ≤ w ∧ countCapturesFrom true (b :: s) = countCapturesFrom true (s.drop (w - 1)) := by
  have escape : ∀ {e : UInt8} {more : Bytes}, 2 ≤ w → (∀ x ∈ more.take (w - 2), isQuiet x = true) →
      1 ≤ w ∧ countCapturesFrom true (Ascii.backslash :: e :: more) =
        countCapturesFrom true ((e :: more).drop (w - 1)) := by
    intro e more hw quiet
    obtain ⟨v, rfl⟩ := Nat.exists_eq_add_of_le hw
    refine ⟨by omega, ?_⟩
    rw [countCapturesFrom_backslash, countCapturesFrom_drop quiet]
    congr 1
    have : 2 + v - 1 = v + 1 := by omega
    rw [this, List.drop_succ_cons]
    congr 1
    omega
  cases readsMember_of_member h with
  | char hs =>
    refine ⟨(Utf8.width_decode b s).1, ?_⟩
    rw [← countCapturesFrom_drop (isQuiet_of_decode b s)]
    -- Inside of a class neither bracket nor parenthesis opens anything.
    by_cases hq : isQuiet b = true
    · exact countCapturesFrom_quiet hq true s
    · simp only [isQuiet, ne_eq, Bool.and_eq_true, decide_eq_true_eq, not_and_or, not_not] at hq
      rcases hq with ((rfl | rfl) | rfl) | rfl
      · exact absurd rfl hs
      · exact countCapturesFrom_openBracket true s
      · exact absurd rfl hb
      · exact (countCapturesFrom_openParen true s).trans (Nat.zero_add _)
  | classEscape | backspace | minus => exact escape (by decide) (by simp)
  | property hp => exact escape (isQuiet_of_readsProperty hp).1 (isQuiet_of_readsProperty hp).2
  | charEscape hc => exact escape (isQuiet_of_readsChar hc).1 (isQuiet_of_readsChar hc).2

/-- Where the rest `left` of a class starts `w` bytes after `pos`, and the bytes between open no
group, what holds of the rest holds from `pos` on. -/
theorem countCapturesFrom_skip {b : UInt8} {s left : Bytes} {pos w stop : Nat} (hw : 1 ≤ w)
    (rest : left = s.drop (w - 1))
    (quiet : countCapturesFrom true (b :: s) = countCapturesFrom true left)
    (later : pos + w < stop ∧ countCapturesFrom true left =
      countCapturesFrom false (left.drop (stop - (pos + w)))) :
    pos < stop ∧ countCapturesFrom true (b :: s) =
      countCapturesFrom false ((b :: s).drop (stop - pos)) := by
  obtain ⟨hlt, hl⟩ := later
  refine ⟨by omega, ?_⟩
  have : stop - pos = (stop - pos - 1) + 1 := by omega
  rw [quiet, hl, rest, List.drop_drop, this, List.drop_succ_cons]
  congr 2
  omega

/-- **A class opens no group** up to its closing bracket.  The induction goes along the members
that are read. -/
theorem countCapturesFrom_readsMembers {unicode : Bool} {pos nodes : Nat} {k : CharClass}
    {s : Bytes} {r : CharClass × Nat × Nat} (h : ReadsMembers unicode pos nodes k s r) :
    pos < r.2.2 ∧ countCapturesFrom true s = countCapturesFrom false (s.drop (r.2.2 - pos)) := by
  induction h with
  | @closes pos nodes k rest =>
    refine ⟨Nat.lt_succ_self pos, ?_⟩
    rw [countCapturesFrom_closeBracket, Nat.add_sub_cancel_left, List.drop_one, List.tail_cons]
  | escape hb hm _ ih | property hb hm _ ih | char hb hm _ ih | noRange hb hm _ ih =>
    obtain ⟨hw, quiet⟩ := countCapturesFrom_member hm hb
    exact countCapturesFrom_skip hw rfl quiet ih
  | @range pos nodes w v c d k b x rest more r hb hm left hx hd _ _ ih =>
    obtain ⟨hw, first⟩ := countCapturesFrom_member hm hb
    obtain ⟨hv, last⟩ := countCapturesFrom_member hd hx
    have after : more.drop (v - 1) = rest.drop (w + 1 + v - 1) := by
      have := congrArg (List.drop 2) left
      rw [List.drop_drop, List.drop_succ_cons, List.drop_succ_cons, List.drop_zero] at this
      rw [← this, List.drop_drop]
      congr 1
      omega
    have quiet : countCapturesFrom true (b :: rest) =
        countCapturesFrom true (more.drop (v - 1)) := by
      rw [first, left, countCapturesFrom_quiet (by decide), last]
    have sum : pos + w + 1 + v = pos + (w + 1 + v) := by omega
    exact countCapturesFrom_skip (by omega) after quiet (sum ▸ ih)

theorem countCapturesFrom_charClass {unicode : Bool} {pos : Nat} {rest : Bytes} {k : CharClass}
    {nodes stop : Nat} (h : charClass unicode pos rest = .ok (k, nodes, stop)) :
    countCapturesFrom true rest = countCapturesFrom false (rest.drop (stop - pos - 1)) := by
  unfold charClass at h
  split at h
  · rename_i more
    obtain ⟨hlt, hc⟩ := countCapturesFrom_readsMembers (readsMembers_of_classBody h)
    have : stop - pos - 1 = stop - (pos + 2) + 1 := by
      simp only at hlt
      omega
    rw [this, List.drop_succ_cons]
    exact (countCapturesFrom_quiet (by decide) true more).trans hc
  · have := (countCapturesFrom_readsMembers (readsMembers_of_classBody h)).2
    rwa [← Nat.sub_sub] at this

end Lexer

/-- Whether a token opens a capture group. -/
def Token.isCapture : Token → Bool
  | .opening .capture _ => true
  | _ => false

/-- A group that is referred to by name can have that name. -/
def Token.IsDefined : Token → Prop
  | .reference _ name => name = [] ∨ Lexer.isGroupName name = true
  | _ => True

namespace Lexer

theorem isQuiet_of_isGroupName {name : Bytes} (h : isGroupName name = true) :
    ∀ b ∈ name, isQuiet b = true := fun b hb =>
  isQuiet_of (by decide) ((isGroupByte_of_isGroupName h).2 b hb)

theorem isQuiet_of_readsEscape {flags : Flags} {captures : Nat} {e : UInt8} {more : Bytes}
    {r : Reading} (h : ReadsEscape flags captures e more r) (hd : r.token.IsDefined) :
    r.token.isCapture = false ∧ 2 ≤ r.width ∧ ∀ b ∈ more.take (r.width - 2), isQuiet b = true := by
  cases h with
  | classEscape | wordBoundary | nonWordBoundary => exact ⟨rfl, by simp, by simp⟩
  | name closed =>
    refine ⟨rfl, by simp, List.forall_mem_cons.mpr ⟨by decide, ?_⟩⟩
    refine isQuiet_of_cut? closed ?_ (by decide)
    rcases hd with rfl | hd
    · simp
    · exact isQuiet_of_isGroupName hd
  | property hp => exact ⟨rfl, isQuiet_of_readsProperty hp⟩
  | number digit =>
    have digits : ∀ b ∈ (e :: more).take ((e :: more).takeWhile Ascii.isDigit).length,
        isQuiet b = true := by
      intro b hb
      rw [← List.prefix_iff_eq_take.mp (List.takeWhile_prefix _)] at hb
      exact isQuiet_of_isDigit (List.all_eq_true.mp List.all_takeWhile b hb)
    rw [List.takeWhile_cons, if_pos digit] at digits ⊢
    rw [List.length_cons, List.take_succ_cons] at digits
    exact ⟨rfl, by simp, (List.forall_mem_cons.mp digits).2⟩
  | char hc => exact ⟨rfl, isQuiet_of_readsChar hc⟩

theorem opensCapture_named {more : Bytes} (equals : ∀ s, more ≠ Ascii.equals :: s)
    (exclamation : ∀ s, more ≠ Ascii.exclamation :: s) :
    opensCapture (Ascii.question :: Ascii.less :: more) = true := by
  unfold opensCapture
  split
  · rename_i heq
    exact absurd (List.cons.inj (List.cons.inj heq).2).2 (equals _)
  · rename_i heq
    exact absurd (List.cons.inj (List.cons.inj heq).2).2 (exclamation _)
  · rfl
  · rename_i hno heq
    exact absurd (List.cons.inj heq).2.symm (hno _)
  · rfl

theorem countCapturesFrom_opening {names : List Bytes} {rest name : Bytes} {kind : GroupKind}
    {w : Nat} (h : ReadsOpening names rest kind name w) :
    countCapturesFrom false (Ascii.openParen :: rest) =
      (if (Token.opening kind name).isCapture then 1 else 0) +
        countCapturesFrom false (rest.drop (w - 1)) := by
  have plain : ∀ (opens : Bool) {w : Nat}, opensCapture rest = opens →
      (∀ b ∈ rest.take (w - 1), isQuiet b = true) →
      countCapturesFrom false (Ascii.openParen :: rest) = (if opens then 1 else 0) +
        countCapturesFrom false (rest.drop (w - 1)) := by
    rintro opens w rfl quiet
    rw [countCapturesFrom_openParen, countCapturesFrom_drop quiet]
    rfl
  cases h with
  | @sign sign kind h more =>
    have signs : kind ≠ .capture ∧ sign.all isQuiet = true ∧
        opensCapture (sign ++ more) = false := by
      simp only [groupSigns, List.mem_cons, Prod.mk.injEq, List.not_mem_nil, or_false] at h
      rcases h with ⟨rfl, rfl⟩ | ⟨rfl, rfl⟩ | ⟨rfl, rfl⟩ | ⟨rfl, rfl⟩ | ⟨rfl, rfl⟩ <;>
        exact ⟨by decide, by decide, rfl⟩
    obtain ⟨hk, quiet, opens⟩ := signs
    have silent : (Token.opening kind []).isCapture = false := by
      cases kind <;> first | rfl | exact absurd rfl hk
    rw [silent]
    refine plain false opens ?_
    rw [Nat.add_sub_cancel, List.take_left]
    exact List.all_eq_true.mp quiet
  | name equals exclamation closed proper =>
    refine plain true (opensCapture_named equals exclamation) ?_
    refine List.forall_mem_cons.mpr ⟨by decide, List.forall_mem_cons.mpr ⟨by decide, ?_⟩⟩
    exact isQuiet_of_cut? closed (isQuiet_of_isGroupName proper) (by decide)
  | plain h =>
    refine plain true ?_ (by simp)
    unfold opensCapture
    split
    all_goals simp_all

theorem isQuiet_of_writesBounds {b : UInt8} {rest : Bytes} {m w : Nat} {n : Option Nat}
    (h : WritesBounds b rest m n w) :
    isQuiet b = true ∧ ∀ x ∈ rest.take (w - 1), isQuiet x = true := by
  cases h with
  | plus => exact ⟨by decide, by simp⟩
  | star => exact ⟨by decide, by simp⟩
  | question => exact ⟨by decide, by simp⟩
  | braces starts =>
    refine ⟨by decide, fun x hx => ?_⟩
    rw [starts.text_eq, List.append_cons, List.take_left' (by simp)] at hx
    rcases List.mem_append.mp hx with hx | hx
    · rcases Braced.of_mem_inner starts.decimal hx with digit | rfl
      · exact isQuiet_of_isDigit digit
      · decide
    · rw [List.mem_singleton.mp hx]
      decide

/-- **A count is quiet.** -/
theorem isQuiet_of_count? {b : UInt8} {rest : Bytes} {c : Count} {w : Nat}
    (h : count? b rest = .ok (some (c, w))) :
    isQuiet b = true ∧ 1 ≤ w ∧ ∀ x ∈ rest.take (w - 1), isQuiet x = true := by
  obtain ⟨v, written, lazy, rfl⟩ := count?_eq_some.mp h
  obtain ⟨hb, quiet⟩ := isQuiet_of_writesBounds written
  have positive := written.width.1
  refine ⟨hb, by omega, ?_⟩
  cases hl : c.lazy with
  | false => exact quiet
  | true =>
    -- One byte more, the question mark.
    have more : v + Bool.toNat true - 1 = v - 1 + 1 := by
      simp only [Bool.toNat_true]
      omega
    intro x hx
    rw [more, List.take_add_one, ← List.head?_drop, lazy.mp hl] at hx
    rcases List.mem_append.mp hx with hx | hx
    · exact quiet x hx
    · rw [List.mem_singleton.mp hx]
      decide

theorem countCapturesFrom_lexeme {flags : Flags} {captures pos : Nat} {names : List Bytes}
    {before : Before} {b : UInt8} {rest : Bytes} {r : Reading}
    (h : lexeme flags captures names pos before b rest = .ok r) (hd : r.token.IsDefined) :
    countCapturesFrom false (b :: rest) = (if r.token.isCapture then 1 else 0) +
      countCapturesFrom false (rest.drop (r.width - 1)) := by
  have quiet : r.token.isCapture = false → isQuiet b = true →
      (∀ x ∈ rest.take (r.width - 1), isQuiet x = true) →
      countCapturesFrom false (b :: rest) = (if r.token.isCapture then 1 else 0) +
        countCapturesFrom false (rest.drop (r.width - 1)) := by
    intro hr hb hq
    rw [countCapturesFrom_quiet hb, ← countCapturesFrom_drop hq, hr]
    exact (Nat.zero_add _).symm
  cases readsLexeme_of_lexeme h with
  | count hc =>
    obtain ⟨hb, -, hq⟩ := isQuiet_of_count? hc
    exact quiet rfl hb hq
  | opening _ ho => exact countCapturesFrom_opening ho
  | closing | bar | dot | start | stop => exact quiet rfl (by decide) (by simp)
  | charClass _ hk =>
    exact (countCapturesFrom_openBracket false rest).trans
      ((countCapturesFrom_charClass hk).trans (Nat.zero_add _).symm)
  | @escape e more _ _ he =>
    obtain ⟨hc, hw, hq⟩ := isQuiet_of_readsEscape he hd
    obtain ⟨v, hv⟩ := Nat.exists_eq_add_of_le hw
    refine (countCapturesFrom_backslash false e more).trans ?_
    rw [countCapturesFrom_drop hq, hc]
    have : r.width - 1 = v + 1 := by omega
    rw [this, List.drop_succ_cons, hv, Nat.add_sub_cancel_left]
    exact (Nat.zero_add _).symm
  | char _ hb =>
    by_cases close : b = Ascii.closeBracket
    · subst close
      exact (countCapturesFrom_closeBracket false rest).trans (Nat.zero_add _).symm
    · exact quiet rfl (by simp_all [isQuiet, signs]) (isQuiet_of_decode b rest)

/-- **The groups of a source are counted right**: beforehand as many are found as are opened.  By
induction along the scan: each lexeme is passed by the walk as a whole, with one group counted if
it opens one. -/
theorem countCapturesFrom_scan {flags : Flags} {captures pos : Nat} {names : List Bytes}
    {before : Before} {s : Bytes} {ls : List Lexeme}
    (h : scan flags captures pos names before s = (ls, none))
    (hd : ∀ l ∈ ls, l.token.IsDefined) :
    countCapturesFrom false s = ls.countP (·.token.isCapture) := by
  fun_induction scan flags captures pos names before s generalizing ls with
  | case1 =>
    cases h
    rfl
  | case2 => cases h
  | case3 pos names before b rest r hr later =>
    rename_i ih
    obtain ⟨rfl, hnone⟩ := Prod.mk.inj h
    obtain ⟨hr', hlater⟩ := List.forall_mem_cons.mp hd
    rw [countCapturesFrom_lexeme hr hr', ih (Prod.ext rfl hnone) hlater, List.countP_cons,
      Nat.add_comm]

end Lexer

end Backtrack
