/-
# Where groups open in a text that is written

A row of tokens is written, and the text is parsed by a reader that knows nothing of the tokens.
`Pattern.perm_openings_of_written` says that the groups of the tree open exactly where the row has
openings, and that they are of the same kinds.

References stand in the way.  A revised tree may keep a reference to a group that is no longer
there, and then `\12` may be read as a character by number, with digits left over that are
characters of their own; so the tokens are not read back one by one, as in `Lexer.scan_text`.  But
whatever the reader makes of the digits, it opens no group there, it comes to the byte after the
last digit, and what it has read can be repeated like the reference (`Lexer.scan_number`).  That is
all the tokens after it ask for.
-/
import Backtrack.Proofs.Pattern.Making
import Backtrack.Proofs.Pattern.Numbering
import Backtrack.Proofs.Pattern.RoundTrip
import Mathlib.Data.List.Perm.Subperm

namespace Backtrack

/-! ## 1. Openings -/

/-- The kind of group a token opens. -/
def Token.kind? : Token → Option GroupKind
  | .opening kind _ => some kind
  | _ => none

/-- Where a lexeme opens a group, and of which kind. -/
def Lexeme.opening? (l : Lexeme) : Option (Nat × GroupKind) := l.token.kind?.map (l.start, ·)

theorem Lexeme.map_snd_opening? (ls : List Lexeme) :
    (ls.filterMap opening?).map Prod.snd = ls.filterMap (·.token.kind?) := by
  rw [List.map_filterMap]
  refine congrArg (List.filterMap · ls) (funext fun l => ?_)
  rw [opening?, Option.map_map]
  exact Option.map_id'

/-- Where a group opens, and of which kind it is. -/
def Group.opening (g : Group) : Nat × GroupKind := (g.site.start, g.kind)

namespace Token

/-- The openings among tokens that are written from `pos` on. -/
def openings (pos : Nat) : List Token → List (Nat × GroupKind)
  | [] => []
  | t :: ts => (t.kind?.map (pos, ·)).toList ++ openings (pos + t.text.length) ts

theorem kind?_bare (t : Token) : t.bare.kind? = t.kind? := by
  cases t <;> rfl

theorem kind?_blank (t : Token) : t.blank.kind? = t.kind? := by
  cases t <;> rfl

theorem kind?_resolved (resolve : Bytes → Nat) (t : Token) :
    (t.resolved resolve).kind? = t.kind? := by
  cases t <;> rfl

theorem kind?_unresolved (t : Token) : t.unresolved.kind? = t.kind? := by
  unfold unresolved
  split <;> rfl

theorem map_snd_openings (ts : List Token) :
    ∀ pos, (openings pos ts).map Prod.snd = ts.filterMap kind? := by
  induction ts with
  | nil => exact fun _ => rfl
  | cons t ts ih =>
    intro pos
    rw [openings, List.map_append, ih, List.filterMap_cons]
    cases t.kind? <;> rfl

theorem openings_unresolved (ts : List Token) :
    ∀ pos, openings pos (ts.map unresolved) = openings pos ts := by
  induction ts with
  | nil => exact fun _ => rfl
  | cons t ts ih =>
    intro pos
    rw [List.map_cons, openings, openings, ih, kind?_unresolved, text_unresolved]

/-- Separating takes nothing away. -/
theorem sublist_separate (ts : List Token) : ts.Sublist (separate ts) := by
  induction ts with
  | nil => exact List.Sublist.refl _
  | cons t ts ih => exact (ih.trans (List.sublist_append_right _ _)).cons_cons t

end Token

namespace Node

/-- The openings of a tree are those of its groups, in the order of its walk. -/
theorem filterMap_kind?_tokens (n : Node) :
    n.tokens.filterMap Token.kind? = (groupsIn n.walk).map (·.kind) := by
  have others : ∀ t : Token, t.isOwn = false → t.kind? = none := fun t ht => by
    cases t with
    | opening => cases ht
    | _ => rfl
  rw [filterMap_tokens others, groupsIn, List.map_filterMap]
  refine List.filterMap_congr fun m _ => ?_
  cases m <;> rfl

end Node

/-! ## 2. Openings of a source and groups of its tree

A group starts at the parenthesis that opens it, and this is all that a place in the source says
of it.  The order of groups in the tree is not used, so the two lists are compared up to their
order. -/

namespace Pattern

variable {source : Bytes} {flags : Flags} {p : Pattern}

/-- The tree has the openings of the source, in their order. -/
theorem Follows.kinds {ls : List Lexeme} (h : Follows source flags p ls) :
    p.root.tokens.filterMap Token.kind? = ls.filterMap (·.token.kind?) := by
  have := congrArg (List.filterMap Token.kind?) h.tokens
  rw [List.filterMap_map, List.filterMap_map, List.filterMap_map] at this
  simpa only [Function.comp_def, Token.kind?_blank, Token.kind?_resolved] using this

/-- **Groups are where the source opens them**, each with the kind it opens.  A group starts where
its parenthesis does, and it has the kind of the token. -/
theorem perm_openings (h : parse source flags = .ok p) :
    ((groupsIn p.root.walk).map Group.opening).Perm
      ((Lexer.lexemes flags source).1.filterMap Lexeme.opening?) := by
  obtain ⟨ls, hls, -, made⟩ := made_of_parse h
  obtain ⟨ls', follows⟩ := exists_follows_of_parse h
  obtain rfl : ls' = ls := congrArg Prod.fst (follows.lexemes.symm.trans hls)
  rw [hls]
  -- Every group has its lexeme, no two are at the same place, and there are as many.
  have subset : (groupsIn p.root.walk).map Group.opening ⊆ ls'.filterMap Lexeme.opening? := by
    intro o ho
    obtain ⟨g, hg, rfl⟩ := List.mem_map.mp ho
    obtain ⟨body, hb⟩ := mem_groupsIn.mp hg
    obtain ⟨a, ha⟩ | joint | ⟨l, hl, token, start⟩ := made _ hb
    · cases ha
    · cases joint
    · exact List.mem_filterMap.mpr ⟨l, hl, by rw [Lexeme.opening?, token, start]; rfl⟩
  have nodup : ((groupsIn p.root.walk).map Group.opening).Nodup := by
    refine List.pairwise_map.mpr
      ((Node.opens_walk p.root (covers_of_parse h).tiled).ordered.imp fun hlt he => ?_)
    exact Nat.ne_of_lt hlt (congrArg Prod.fst he)
  have length : (ls'.filterMap Lexeme.opening?).length =
      ((groupsIn p.root.walk).map Group.opening).length := by
    have := congrArg List.length ((Lexeme.map_snd_opening? ls').trans follows.kinds.symm)
    rwa [Node.filterMap_kind?_tokens, List.length_map, List.length_map,
      ← List.length_map (f := Group.opening)] at this
  exact (nodup.subperm subset).perm_of_length_le length.le

end Pattern

/-! ## 3. What becomes of a number

There are three readings of digits after a backslash: a reference, a character by its number with
digits left over, or the digit itself.  All of them end at the last digit, when the rest has been
read as well. -/

namespace Lexer

/-- What can be repeated opens no group. -/
theorem kind?_of_repeatable {t : Token} (h : Before.of t = .repeatable) : t.kind? = none := by
  cases t <;> first | rfl | cases h

theorem namesAfter_of_repeatable {t : Token} (h : Before.of t = .repeatable) (names : List Bytes) :
    namesAfter names t = names := by
  cases t <;> first | rfl | cases h

theorem length_octal_le : ∀ (digits value : Nat) (s : Bytes),
    (octal digits value s).2 ≤ (s.takeWhile Ascii.isDigit).length
  | 0, _, _ => Nat.zero_le _
  | _ + 1, _, [] => Nat.le_refl 0
  | n + 1, value, b :: rest => by
    rw [octal]
    split
    · rename_i ho
      have digit : Ascii.isDigit b = true := by
        simp only [Ascii.isOctal, Bool.and_eq_true, decide_eq_true_eq] at ho
        simp only [Ascii.isDigit, Bool.and_eq_true, decide_eq_true_eq]
        exact ⟨ho.1.1, UInt8.le_trans ho.1.2 (by decide)⟩
      rw [List.takeWhile_cons_of_pos digit, List.length_cons]
      exact Nat.succ_le_succ (length_octal_le n _ rest)
    · exact Nat.zero_le _

theorem toNat_of_isDigit {b : UInt8} (h : Ascii.isDigit b = true) :
    0x30 ≤ b.toNat ∧ b.toNat ≤ 0x39 := by
  simpa only [Ascii.isDigit, Bool.and_eq_true, decide_eq_true_eq, UInt8.le_iff_toNat_le,
    UInt8.reduceToNat] using h

/-- Of a character that is escaped with a digit no more is read than digits. -/
theorem width_of_charEscape {unicode : Bool} {e : UInt8} {more : Bytes} {c : Nat × Nat}
    (digit : Ascii.isDigit e = true) (h : charEscape unicode e more = .ok c) :
    1 ≤ c.2 ∧ c.2 ≤ ((e :: more).takeWhile Ascii.isDigit).length + 1 := by
  have bounds := toNat_of_isDigit digit
  have decode := Utf8.decode_ascii (b := e) (by omega) more
  have positive : 1 ≤ ((e :: more).takeWhile Ascii.isDigit).length := by
    rw [List.takeWhile_cons_of_pos digit]
    exact Nat.succ_le_succ (Nat.zero_le _)
  cases readsChar_of_charEscape h with
  | number hn =>
    -- The only letter that is a digit is zero.
    rw [decode] at hn
    generalize hv : e.toNat = v at hn bounds
    cases hn with
    | nul => exact ⟨by simp, by simpa using positive⟩
    | _ => exact absurd bounds (by decide)
  | octal =>
    have := length_octal_le 3 0 (e :: more)
    exact ⟨Nat.le_add_left 1 _, Nat.succ_le_succ this⟩
  | plain =>
    rw [decode]
    exact ⟨by simp, by simpa using positive⟩

/-- **Digits after a backslash are read up to the last one at most**, and what is read can be
repeated. -/
theorem reads_of_escape_digits {flags : Flags} {captures : Nat} {s after : Bytes} {r : Reading}
    (nonempty : s ≠ []) (digits : ∀ b ∈ s, Ascii.isDigit b = true)
    (ha : ∀ b, after.head? = some b → Ascii.isDigit b = false)
    (h : escape flags captures (s ++ after) = .ok r) :
    Before.of r.token = .repeatable ∧ 1 ≤ r.width ∧ r.width ≤ s.length + 1 := by
  have prefix_eq := takeWhile_isDigit digits ha
  obtain ⟨e, more, rfl⟩ := List.exists_cons_of_ne_nil nonempty
  have digit := digits e List.mem_cons_self
  rw [List.cons_append] at h prefix_eq
  have char : ∀ {c : Nat × Nat}, charEscape flags.unicode e (more ++ after) = .ok c →
      1 ≤ c.2 ∧ c.2 ≤ (e :: more).length + 1 := fun hc =>
    prefix_eq ▸ width_of_charEscape digit hc
  rw [escape_digit digit, prefix_eq] at h
  dsimp only at h
  split at h
  · split at h
    · obtain rfl := Except.ok.inj h
      exact ⟨rfl, by simp, Nat.le_refl _⟩
    · split at h
      · cases h
      · split at h
        · obtain rfl := Except.ok.inj h
          exact ⟨rfl, char ‹_›⟩
        · cases h
  · split at h
    · obtain rfl := Except.ok.inj h
      exact ⟨rfl, char ‹_›⟩
    · cases h

theorem not_mem_of_isDigit {marks : List UInt8} (hm : marks.all (!Ascii.isDigit ·) = true)
    {b : UInt8} (digit : Ascii.isDigit b = true) : b ∉ marks := by
  intro hb
  have := List.all_eq_true.mp hm b hb
  rw [digit] at this
  cases this

/-- A digit that is left over is a character. -/
theorem lexeme_digit {flags : Flags} {captures pos : Nat} {names : List Bytes} {b : UInt8}
    (digit : Ascii.isDigit b = true) (rest : Bytes) :
    lexeme flags captures names pos .repeatable b rest = .ok ⟨.leaf (.char b.toNat), 1, 1⟩ := by
  have bounds := toNat_of_isDigit digit
  have mark : isMark b = false := by
    rw [isMark, List.contains_eq_mem, decide_eq_false_iff_not]
    exact not_mem_of_isDigit (by decide) digit
  have none : count? b rest = .ok none :=
    count?_eq_none (not_mem_of_isDigit (by decide) digit) rest
  unfold lexeme
  rw [none]
  dsimp only
  rw [fresh_plain mark, Utf8.decode_ascii (by omega)]

variable {flags : Flags} {captures pos : Nat} {names : List Bytes} {ls : List Lexeme}

/-- Digits that are left over are passed one by one, and open nothing. -/
theorem scan_digits {after : Bytes} : ∀ {s : Bytes} {pos : Nat} {ls : List Lexeme},
    (∀ b ∈ s, Ascii.isDigit b = true) →
      scan flags captures pos names .repeatable (s ++ after) = (ls, none) →
        ∃ passed later, ls = passed ++ later ∧ passed.filterMap Lexeme.opening? = [] ∧
          scan flags captures (pos + s.length) names .repeatable after = (later, none)
  | [], _, ls, _, h => ⟨[], ls, rfl, rfl, h⟩
  | b :: s, pos, ls, digits, h => by
    obtain ⟨digit, digits⟩ := List.forall_mem_cons.mp digits
    rw [List.cons_append, scan, lexeme_digit digit] at h
    obtain ⟨rfl, fault⟩ := Prod.mk.inj h
    obtain ⟨passed, later, split, nothing, rest⟩ :=
      scan_digits (s := s) digits (Prod.ext rfl fault)
    refine ⟨_ :: passed, later, congrArg (_ :: ·) split, nothing, ?_⟩
    rw [List.length_cons, Nat.add_comm s.length, ← Nat.add_assoc]
    exact rest

/-- **A number after a backslash is passed**, whatever is read there: no group opens, and the reader
goes on after it as after something that can be repeated. -/
theorem scan_number {before : Before} {s after : Bytes} (nonempty : s ≠ [])
    (digits : ∀ b ∈ s, Ascii.isDigit b = true)
    (ha : ∀ b, after.head? = some b → Ascii.isDigit b = false)
    (h : scan flags captures pos names before (Ascii.backslash :: (s ++ after)) = (ls, none)) :
    ∃ passed later, ls = passed ++ later ∧ passed.filterMap Lexeme.opening? = [] ∧
      scan flags captures (pos + (s.length + 1)) names .repeatable after = (later, none) := by
  have read : lexeme flags captures names pos before Ascii.backslash (s ++ after) =
      escape flags captures (s ++ after) := by
    have none := count?_eq_none (b := Ascii.backslash) (by decide) (s ++ after)
    unfold lexeme
    rw [none]
    cases before <;> rfl
  rw [scan, read] at h
  cases hr : escape flags captures (s ++ after) with
  | error f =>
    rw [hr] at h
    cases h
  | ok r =>
    obtain ⟨repeatable, positive, le⟩ := reads_of_escape_digits nonempty digits ha hr
    rw [hr] at h
    dsimp only at h
    rw [repeatable, namesAfter_of_repeatable repeatable,
      List.drop_append_of_le_length (by omega)] at h
    obtain ⟨rfl, fault⟩ := Prod.mk.inj h
    obtain ⟨passed, later, split, nothing, rest⟩ :=
      scan_digits (fun b hb => digits b (List.mem_of_mem_drop hb)) (Prod.ext rfl fault)
    refine ⟨_ :: passed, later, congrArg (_ :: ·) split, ?_, ?_⟩
    · rw [List.filterMap_cons, Lexeme.opening?, kind?_of_repeatable repeatable, nothing]
      rfl
    · rw [List.length_drop] at rest
      rwa [show pos + (s.length + 1) = pos + r.width + (s.length - (r.width - 1)) by omega]

end Lexer

/-! ## 4. What becomes of a row of tokens

The induction goes along the tokens.  Each is read back as itself, or it is a number and passed,
and in both cases what comes next is read as it would be after the token. -/

/-- Whether a token can be written and read again, up to what becomes of a number: references by
number may be to groups that there are not. -/
def Token.IsReadable (flags : Flags) (t : Token) : Prop :=
  t.isNumeric = false → t.IsLegible flags 0

namespace Token

theorem isLegible_of_isNumeric {flags : Flags} {t : Token} (h : t.isNumeric = false)
    {captures captures' : Nat} (legible : t.IsLegible flags captures) :
    t.IsLegible flags captures' := by
  unfold isNumeric at h
  split at h
  · cases h
  · rename_i other
    cases t with
    | reference index name =>
      cases name with
      | nil => exact absurd rfl (other index)
      | cons => exact legible
    | _ => exact legible

theorem isReadable_of_isLegible {flags : Flags} {captures : Nat} {t : Token}
    (h : t.IsLegible flags captures) : t.IsReadable flags :=
  fun numeric => isLegible_of_isNumeric numeric h

theorem exists_of_isNumeric {t : Token} (h : t.isNumeric = true) :
    ∃ index, t = reference index [] := by
  unfold isNumeric at h
  split at h
  · exact ⟨_, rfl⟩
  · cases h

/-- A token that may stand after another allows it to be read. -/
theorem allows_of_isReadable {flags : Flags} {t u : Token} (fits : t.Fits u)
    (hu : u.IsReadable flags) (after : Bytes) : t.Allows (u.text ++ after) := by
  cases numeric : u.isNumeric with
  | false => exact Lexer.allows_of_fits fits (hu numeric) after
  | true =>
    obtain ⟨index, rfl⟩ := exists_of_isNumeric numeric
    have head : ((reference index []).text ++ after).head? = some Ascii.backslash := rfl
    -- A backslash is no digit, and no question mark.
    unfold Allows
    rw [head]
    split
    · rintro b ⟨⟩
      rfl
    · decide
    · exact fun _ => by decide
    · trivial

end Token

namespace Lexer

variable {flags : Flags} {captures : Nat}

/-- **A row of tokens is read with its openings where they are written.**  By induction along the
tokens.  A number may become several lexemes, but none of them opens a group. -/
theorem openings_of_scan {ts : List Token} (readable : ∀ t ∈ ts, t.IsReadable flags)
    (fits : ts.IsChain Token.Fits) (distinct : (ts.filterMap Token.name?).Nodup)
    {names : List Bytes} {before : Before}
    (first : ∀ t ∈ ts.head?, t.isCount = true → before = .repeatable)
    (new : ∀ n ∈ ts.filterMap Token.name?, n ∉ names) {pos : Nat} {ls : List Lexeme}
    (h : scan flags captures pos names before (ts.flatMap Token.text) = (ls, none)) :
    ls.filterMap Lexeme.opening? = Token.openings pos ts := by
  induction ts generalizing names before pos ls with
  | nil =>
    rw [List.flatMap_nil, scan] at h
    obtain ⟨rfl, -⟩ := Prod.mk.inj h
    rfl
  | cons t ts ih =>
    obtain ⟨ht, readable⟩ := List.forall_mem_cons.mp readable
    obtain ⟨fit, fits⟩ := List.isChain_cons.mp fits
    obtain ⟨isNew, distinct, new⟩ := isNew_cons distinct new
    have allows : t.Allows (ts.flatMap Token.text) := allows_flatMap fun u hu =>
      Token.allows_of_isReadable (fit u hu) (readable u (List.mem_of_mem_head? hu))
    have later := @ih readable fits distinct (namesAfter names t) (Before.of t)
      (fun u hu => (fit u hu).1) new
    cases numeric : t.isNumeric with
    | true =>
      obtain ⟨index, rfl⟩ := Token.exists_of_isNumeric numeric
      obtain ⟨passed, others, rfl, nothing, rest⟩ := scan_number (Ascii.decimal_ne_nil index)
        (Ascii.isDigit_of_mem_decimal index) allows h
      rw [List.filterMap_append, nothing, List.nil_append]
      exact later rest
    | false =>
      have legible : t.IsLegible flags captures := Token.isLegible_of_isNumeric numeric (ht numeric)
      obtain ⟨r, reads, scanned⟩ := scan_token pos legible (first t rfl) isNew allows
      rw [List.flatMap_cons, scanned] at h
      obtain ⟨rfl, fault⟩ := Prod.mk.inj h
      have kind_eq : r.token.kind? = t.kind? := by
        rw [← Token.kind?_bare, reads.token, Token.kind?_bare]
      rw [Token.openings, ← reads.width, ← later (Prod.ext rfl fault), List.filterMap_cons,
        Lexeme.opening?, kind_eq]
      cases t.kind? <;> rfl

end Lexer

/-! ## 5. What becomes of a tree that is written

No group has to remain for this.  A reference whose group is gone is still something that can be
read, if by another meaning. -/

namespace Revision

variable {w : Revision} {flags : Flags} {captures : Nat} {root : Node}

/-- The tokens of a revised tree can be read, whether the groups of its references remain or not. -/
theorem isReadable_revised (respects : w.Respects root) (h : root.Spelled flags captures)
    (kept : List Nat) : ∀ t ∈ (w.revised kept [] root).tokens, t.IsReadable flags := by
  intro t ht
  cases origin_of_mem_revised respects t ht with
  | same ht' hr => exact Token.isReadable_of_isLegible (h.legible t ht' (hr 0 []))
  | opening => exact fun _ => .inl rfl
  | closing => exact fun _ => trivial
  | @reference r name hr hs hn =>
    cases name with
    | nil => exact nofun
    | cons b name =>
      have hn := hn.resolve_left (by simp)
      have origin := h.legible _
        (Node.tokens_subset (m := .reference r) (by simp) hr (List.mem_singleton_self _))
        (by rw [← hn]; simp)
      rw [← hn] at origin
      exact Token.isReadable_of_isLegible (t := .reference r.index (b :: name)) origin

/-- **What a tree under a revision is read as**, if it can be read at all: its groups open where
they are written. -/
theorem openings_of_written (respects : w.Respects root) (h : root.Spelled flags captures)
    {ls : List Lexeme} (read : Lexer.lexemes flags (textOf (w.written root)) = (ls, none)) :
    ls.filterMap Lexeme.opening? =
      Token.openings 0 (Token.separate (w.revised (w.kept root) [] root).tokens) := by
  have stands : (w.revised (w.kept root) [] root).stands flags .body = true :=
    stands_revised respects h.stands
  have row := Node.row_tokens stands
  have readable := isReadable_revised respects h (w.kept root)
  have distinct := distinct_revised (w := w) h (w.kept root)
  rw [textOf_written, Lexer.lexemes] at read
  refine Lexer.openings_of_scan ?_ (Token.fits_separate row.chain) ?_ ?_ ?_ read
  · exact Token.forall_mem_separate (fun _ => .inl rfl) (fun _ => trivial) readable
  · rwa [Token.filterMap_name?_separate]
  · intro t ht hc
    rw [Token.head?_separate] at ht
    rw [row.first t ht] at hc
    cases hc
  · simp

/-- The openings of the tokens that are written are those of the revised tree. -/
theorem openings_written (pos : Nat) :
    Token.openings pos ((w.written root).map (·.token)) =
      Token.openings pos (Token.separate (w.revised (w.kept root) [] root).tokens) := by
  have agrees : ((w.pieces (w.kept root) [] root).map (·.token)).map Token.unresolved =
      (w.revised (w.kept root) [] root).tokens.map Token.unresolved := by
    rw [List.map_map]
    exact unresolved_pieces [] root
  rw [← Token.openings_unresolved, written, Token.map_separate, ← Token.separate_unresolved,
    agrees, Token.separate_unresolved, Token.openings_unresolved]

end Revision

namespace Pattern

open Backtrack.Revision

variable {w : Revision} {flags : Flags} {captures : Nat} {root : Node} {q : Pattern}

/-- **A tree that is read after a revision has its groups where they were written.** -/
theorem perm_openings_of_written (respects : w.Respects root) (h : root.Spelled flags captures)
    (hq : parse (textOf (w.written root)) flags = .ok q) :
    ((groupsIn q.root.walk).map Group.opening).Perm
      (Token.openings 0 ((w.written root).map (·.token))) := by
  obtain ⟨ls, follows⟩ := exists_follows_of_parse hq
  have perm := perm_openings hq
  rwa [follows.lexemes, openings_of_written respects h follows.lexemes, ← openings_written] at perm

/-- The kinds of its groups are those of the revised tree, and there are separators besides. -/
theorem kinds_of_written (respects : w.Respects root) (h : root.Spelled flags captures)
    (hq : parse (textOf (w.written root)) flags = .ok q) :
    q.root.tokens.filterMap Token.kind? =
      (Token.separate (w.revised (w.kept root) [] root).tokens).filterMap Token.kind? := by
  obtain ⟨ls, follows⟩ := exists_follows_of_parse hq
  rw [follows.kinds, ← Lexeme.map_snd_opening?, openings_of_written respects h follows.lexemes,
    Token.map_snd_openings]

end Pattern

end Backtrack
