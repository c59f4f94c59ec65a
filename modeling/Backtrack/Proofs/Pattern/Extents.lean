/-
# Where lexemes lie

The reader of tokens keeps two accounts of where it is: the bytes that are left, and the position of
the first of them.  They agree because no reading takes more bytes than there are, and every reading
takes one at least (`Lexer.fits_of_lexeme`).

So the lexemes of a source that is read to its end lie back to back, the first at its start and the
last at its end (`Lexer.contiguous_lexemes`).  Each of the three marks that give a tree its shape is at
the byte it is named after, and the members of a class are strictly between its brackets, in order.
-/
import Backtrack.Proofs.Pattern.Tokens

namespace Backtrack

/-! ## 1. Cuts -/

theorem Ascii.length_of_cut? {b : UInt8} {s before after : Bytes}
    (h : cut? b s = some (before, after)) : before.length + 1 ≤ s.length := by
  rw [cut?_eq_some h]
  simp

namespace Lexer

/-! ## 2. Escapes -/

theorem le_length_of_hexDigits? {n v : Nat} {s : Bytes} (h : hexDigits? n s = some v) :
    n ≤ s.length := by
  unfold hexDigits? at h
  split at h
  · simp at h
  · omega

theorem width_octal : ∀ (digits value : Nat) (s : Bytes), (octal digits value s).2 ≤ s.length
  | 0, _, _ => by simp [octal]
  | _ + 1, _, [] => by simp [octal]
  | n + 1, v, b :: rest => by
    unfold octal
    split
    · have := width_octal n (v * 8 + (b.toNat - 0x30)) rest
      simpa using this
    · simp

/-- The width counts from the letter on. -/
theorem width_of_readsNumber {c : Nat} {rest : Bytes} {r : Nat × Nat} (h : ReadsNumber c rest r) :
    1 ≤ r.2 ∧ r.2 ≤ rest.length + 1 := by
  cases h with
  | byte digits | unit digits =>
    have := le_length_of_hexDigits? digits
    simp only
    omega
  | braces closed =>
    have := Ascii.length_of_cut? closed
    simp only [List.length_cons]
    omega
  | control | nul => simp

/-- The width counts from the backslash on. -/
theorem width_of_readsChar {b : UInt8} {rest : Bytes} {r : Nat × Nat} (h : ReadsChar b rest r) :
    1 ≤ r.2 ∧ r.2 ≤ rest.length + 2 := by
  have decoded := Utf8.width_decode b rest
  cases h with
  | number hn =>
    have := width_of_readsNumber hn
    rw [List.length_drop] at this
    simp only
    omega
  | octal =>
    have := width_octal 3 0 (b :: rest)
    rw [List.length_cons] at this
    simp only
    omega
  | plain =>
    simp only
    omega

theorem width_of_readsProperty {unicode : Bool} {b : UInt8} {rest : Bytes}
    {p : PropertyEscape × Nat} (h : ReadsProperty unicode b rest p) :
    1 ≤ p.2 ∧ p.2 ≤ rest.length + 2 := by
  cases h with
  | mk closed =>
    have := Ascii.length_of_cut? closed
    simp only [List.length_cons]
    omega

/-! ## 3. Classes -/

/-- The sites lie strictly between `start` and the last byte before `stop`, in order. -/
def Inside (start stop : Nat) (sites : List Site) : Prop :=
  (∀ s ∈ sites, start < s.start ∧ s.start < s.stop ∧ s.stop < stop) ∧
    sites.Pairwise fun s t => s.stop ≤ t.start

theorem Inside.nil (start stop : Nat) : Inside start stop [] := ⟨by simp, List.Pairwise.nil⟩

theorem Inside.mono {start stop stop' : Nat} {sites : List Site} (h : Inside start stop sites)
    (le : stop ≤ stop') : Inside start stop' sites := by
  refine ⟨fun s hs => ?_, h.2⟩
  have := h.1 s hs
  omega

/-- One more site, right after what was read. -/
theorem Inside.concat {start pos w : Nat} {sites : List Site} (h : Inside start (pos + 1) sites)
    (after : start < pos) (positive : 1 ≤ w) (nodes : Nat) :
    Inside start (pos + w + 1) (sites ++ [siteIn nodes pos w]) := by
  refine ⟨?_, List.pairwise_append.mpr ⟨h.2, List.pairwise_singleton _ _, ?_⟩⟩
  · intro s hs
    rcases List.mem_append.mp hs with hs | hs
    · have := h.1 s hs
      omega
    · rw [List.mem_singleton.mp hs]
      simp only [siteIn]
      omega
  · intro s hs t ht
    rw [List.mem_singleton.mp ht]
    have := h.1 s hs
    simp only [siteIn]
    omega

/-- The escapes and the properties of a class lie inside of it. -/
def MembersInside (start stop : Nat) (k : CharClass) : Prop :=
  Inside start stop (k.escapes.map (·.1)) ∧ Inside start stop (k.properties.map (·.1))

theorem width_of_member {unicode : Bool} {b : UInt8} {rest : Bytes} {m : Member × Nat}
    (h : member unicode b rest = .ok m) : 1 ≤ m.2 ∧ m.2 ≤ rest.length + 1 := by
  cases readsMember_of_member h with
  | char => exact Utf8.width_decode b rest
  | classEscape | backspace | minus => simp
  | property hp => exact width_of_readsProperty hp
  | charEscape hc => exact width_of_readsChar hc

/-- **A class ends where there are bytes, and its members lie inside of it**, if those read before
do. -/
theorem extent_of_readsMembers {unicode : Bool} {start pos nodes : Nat} {k : CharClass} {s : Bytes}
    {r : CharClass × Nat × Nat} (h : ReadsMembers unicode pos nodes k s r) (after : start < pos)
    (hk : MembersInside start (pos + 1) k) :
    start < r.2.2 ∧ r.2.2 ≤ pos + s.length ∧ MembersInside start r.2.2 r.1 := by
  induction h with
  | closes rest => exact ⟨by simp only; omega, by simp only [List.length_cons]; omega, hk⟩
  | @escape pos nodes w k b rest e r _ hm _ ih =>
    obtain ⟨positive, width⟩ := width_of_member hm
    have hk' : MembersInside start (pos + w + 1)
        { k with escapes := k.escapes ++ [(siteIn nodes pos w, e)] } :=
      ⟨by simpa using hk.1.concat after positive nodes, hk.2.mono (by omega)⟩
    obtain ⟨h1, h2, h3⟩ := ih (by omega) hk'
    rw [List.length_drop] at h2
    exact ⟨h1, by rw [List.length_cons]; omega, h3⟩
  | @property pos nodes w k b rest p r _ hm _ ih =>
    obtain ⟨positive, width⟩ := width_of_member hm
    have hk' : MembersInside start (pos + w + 1)
        { k with properties := k.properties ++ [(siteIn nodes pos w, p)] } :=
      ⟨hk.1.mono (by omega), by simpa using hk.2.concat after positive nodes⟩
    obtain ⟨h1, h2, h3⟩ := ih (by omega) hk'
    rw [List.length_drop] at h2
    exact ⟨h1, by rw [List.length_cons]; omega, h3⟩
  | char _ hm _ ih | noRange _ hm _ ih =>
    obtain ⟨positive, width⟩ := width_of_member hm
    obtain ⟨h1, h2, h3⟩ := ih (by omega) ⟨hk.1.mono (by omega), hk.2.mono (by omega)⟩
    rw [List.length_drop] at h2
    exact ⟨h1, by rw [List.length_cons]; omega, h3⟩
  | range _ hm left _ hd _ _ ih =>
    obtain ⟨positive, width⟩ := width_of_member hm
    obtain ⟨positive', width'⟩ := width_of_member hd
    have length := congrArg List.length left
    rw [List.length_drop, List.length_cons, List.length_cons] at length
    obtain ⟨h1, h2, h3⟩ := ih (by omega) ⟨hk.1.mono (by omega), hk.2.mono (by omega)⟩
    rw [List.length_drop] at h2
    exact ⟨h1, by rw [List.length_cons]; omega, h3⟩

theorem extent_of_charClass {unicode : Bool} {pos : Nat} {rest : Bytes}
    {r : CharClass × Nat × Nat} (h : charClass unicode pos rest = .ok r) :
    pos < r.2.2 ∧ r.2.2 ≤ pos + rest.length + 1 ∧ MembersInside pos r.2.2 r.1 := by
  have start : ∀ (stop : Nat) (negated : Bool), MembersInside pos stop ⟨negated, [], [], []⟩ :=
    fun stop negated => ⟨Inside.nil pos stop, Inside.nil pos stop⟩
  unfold charClass at h
  split at h
  · obtain ⟨h1, h2, h3⟩ := extent_of_readsMembers (readsMembers_of_classBody h) (by omega)
      (start _ true)
    exact ⟨h1, by rw [List.length_cons]; omega, h3⟩
  · obtain ⟨h1, h2, h3⟩ := extent_of_readsMembers (readsMembers_of_classBody h) (by omega)
      (start _ false)
    exact ⟨h1, by omega, h3⟩

/-! ## 4. Groups and counts -/

/-- The width counts the parenthesis. -/
theorem width_of_opening {names : List Bytes} {rest name : Bytes} {kind : GroupKind} {w : Nat}
    (h : ReadsOpening names rest kind name w) : 1 ≤ w ∧ w ≤ rest.length + 1 := by
  cases h with
  | sign => simp
  | name _ _ closed =>
    have := Ascii.length_of_cut? closed
    simp only [List.length_cons]
    omega
  | plain => simp

theorem width_of_count? {b : UInt8} {rest : Bytes} {c : Count} {w : Nat}
    (h : count? b rest = .ok (some (c, w))) : 1 ≤ w ∧ w ≤ rest.length + 1 := by
  obtain ⟨v, written, lazy, rfl⟩ := count?_eq_some.mp h
  obtain ⟨positive, bounded⟩ := written.width
  cases hl : c.lazy with
  | false => exact ⟨positive, bounded⟩
  | true =>
    -- A question mark is there, so the bytes do not end before it.
    have left : rest.drop (v - 1) ≠ [] := by
      intro none
      have question := lazy.mp hl
      rw [none] at question
      cases question
    rw [ne_eq, List.drop_eq_nil_iff] at left
    simp only [Bool.toNat_true]
    omega

/-! ## 5. Lexemes -/

/-- What a token says about its place, if it starts at `pos` with the byte `b`: the marks are at the
bytes they are named after, and the members of a class are inside of it. -/
def Marks (pos : Nat) (b : UInt8) (width : Nat) : Token → Prop
  | .opening _ _ => b = Ascii.openParen
  | .closing => b = Ascii.closeParen ∧ width = 1
  | .bar => b = Ascii.pipe ∧ width = 1
  | .leaf (.charClass k) => MembersInside pos (pos + width) k
  | _ => True

/-- What a reading at a byte promises: it takes the byte, and no more than the bytes there are. -/
structure Fits (pos : Nat) (b : UInt8) (rest : Bytes) (r : Reading) : Prop where
  positive : 1 ≤ r.width
  bounded : r.width ≤ rest.length + 1
  marks : Marks pos b r.width r.token

theorem fits_of_readsEscape {flags : Flags} {captures pos : Nat} {e : UInt8} {more : Bytes}
    {r : Reading} (h : ReadsEscape flags captures e more r) :
    Fits pos Ascii.backslash (e :: more) r := by
  cases h with
  | classEscape | wordBoundary | nonWordBoundary => exact ⟨by simp, by simp, trivial⟩
  | name closed =>
    have := Ascii.length_of_cut? closed
    exact ⟨by simp, by simp only [List.length_cons]; omega, trivial⟩
  | property hp =>
    obtain ⟨positive, bounded⟩ := width_of_readsProperty hp
    exact ⟨positive, bounded, trivial⟩
  | number =>
    have := (List.takeWhile_prefix Ascii.isDigit (l := e :: more)).length_le
    exact ⟨by simp, by simp only; omega, trivial⟩
  | char hc =>
    obtain ⟨positive, bounded⟩ := width_of_readsChar hc
    exact ⟨positive, bounded, trivial⟩

/-- **Every lexeme takes a byte at least, and no more bytes than there are.** -/
theorem fits_of_lexeme {flags : Flags} {captures pos : Nat} {names : List Bytes} {before : Before}
    {b : UInt8} {rest : Bytes} {r : Reading}
    (h : lexeme flags captures names pos before b rest = .ok r) : Fits pos b rest r := by
  cases readsLexeme_of_lexeme h with
  | count hc =>
    obtain ⟨positive, bounded⟩ := width_of_count? hc
    exact ⟨positive, bounded, trivial⟩
  | opening _ ho =>
    obtain ⟨positive, bounded⟩ := width_of_opening ho
    exact ⟨positive, bounded, rfl⟩
  | closing | bar => exact ⟨Nat.le_refl 1, by simp, rfl, rfl⟩
  | charClass _ hk =>
    obtain ⟨after, before, inside⟩ := extent_of_charClass hk
    dsimp only at after before inside
    refine ⟨by simp only; omega, by simp only; omega, ?_⟩
    simp only [Marks]
    rwa [Nat.add_sub_cancel' (by omega)]
  | dot | start | stop => exact ⟨Nat.le_refl 1, by simp, trivial⟩
  | escape _ he => exact fits_of_readsEscape he
  | char => exact ⟨(Utf8.width_decode _ _).1, (Utf8.width_decode _ _).2, trivial⟩

/-! ## 6. All lexemes -/

/-- A lexeme at its place in a source. -/
structure InPlace (source : Bytes) (l : Lexeme) : Prop where
  positive : l.start < l.stop
  marks : ∃ b, source[l.start]? = some b ∧ Marks l.start b (l.stop - l.start) l.token

/-- The lexemes lie back to back from `pos` to `stop`. -/
def Contiguous (source : Bytes) (stop : Nat) : Nat → List Lexeme → Prop
  | pos, [] => pos = stop
  | pos, l :: ls => l.start = pos ∧ InPlace source l ∧ Contiguous source stop l.stop ls

theorem contiguous_of_scan {flags : Flags} {captures pos : Nat} {names : List Bytes}
    {before : Before} {s : Bytes} : ∀ {source : Bytes} (read : Bytes), source = read ++ s →
      read.length = pos → (scan flags captures pos names before s).2 = none →
        Contiguous source source.length pos (scan flags captures pos names before s).1 := by
  fun_induction scan flags captures pos names before s with
  | case1 pos =>
    rintro source read rfl hpos -
    simp [Contiguous, hpos]
  | case2 => simp
  | case3 =>
    rename_i pos names before b rest r hr later ih
    rintro source read rfl hpos hnone
    have fits := fits_of_lexeme hr
    have positive := fits.positive
    have bounded := fits.bounded
    refine ⟨rfl, ⟨by simp only; omega, b, by simp [← hpos], ?_⟩, ?_⟩
    · simp only [Nat.add_sub_cancel_left]
      exact fits.marks
    · have split : read ++ b :: rest =
          (read ++ b :: rest.take (r.width - 1)) ++ rest.drop (r.width - 1) := by
        rw [List.append_assoc, List.cons_append, List.take_append_drop]
      refine ih _ split ?_ hnone
      rw [List.length_append, List.length_cons, List.length_take_of_le (by omega)]
      omega

/-- **The lexemes of a source that is read to its end lie back to back.**  Each lexeme is read
where the one before it has ended, and the scan stops at the end of the source. -/
theorem contiguous_lexemes {flags : Flags} {source : Bytes}
    (h : (lexemes flags source).2 = none) :
    Contiguous source source.length 0 (lexemes flags source).1 :=
  contiguous_of_scan [] rfl rfl h

end Lexer

end Backtrack
