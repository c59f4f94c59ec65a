/-
# Atoms by offsets

What is not nested is read alike by offsets and by bytes that are left: what a parenthesis opens
(`Descent.opening_eq`), a count (`Descent.quantifier_eq`), and an atom other than a group
(`Descent.atom_eq`).  An atom is a node for the one reader and a lexeme for the other one, so
`Descent.placed` says what node becomes of a lexeme.

A brace that starts no count is an atom.  Both readers try the count and forget a fault that they meet
on the way; the one by offsets also looks for the question mark behind it, which makes no difference
here.

The groups of a source are counted beforehand, by offsets as well (`Descent.countCaptures_eq`).
-/
import Backtrack.Proofs.Pattern.Faults
import Backtrack.Proofs.Pattern.Offsets

namespace Backtrack

namespace Descent

/-! ## 1. Groups and counts

The reader by offsets looks at one sign after the other, and the reader of lexemes compares whole
beginnings.  So the cases are those of what comes after the parenthesis. -/

section Groups

variable {s rest : Bytes} {i : Nat} {b : UInt8}

theorem not_isPrefixOf {p l : Bytes} (h : ∀ t, l ≠ p ++ t) : ¬ p.isPrefixOf l = true := fun hp =>
  have ⟨t, ht⟩ := List.isPrefixOf_iff_prefix.mp hp
  h t ht.symm

theorem groupName_eq {more : Bytes} (names : List Bytes)
    (h : Left s i (Ascii.question :: Ascii.less :: more)) :
    groupName s names i =
      match Ascii.cut? Ascii.greater more with
      | none => fault i .unclosedGroupName
      | some (name, _) =>
        if !Lexer.isGroupName name then fault (i + 2) (.invalidGroupName name)
        else if names.contains name then fault (i + 2) (.duplicateGroupName name)
        else .ok (.capture, name, i + name.length + 3) := by
  rw [groupName, h.suffix, ok_bind, Ascii.cut?_eq, List.idxOf?_cons, if_neg (by decide),
    List.idxOf?_cons, if_neg (by decide)]
  cases found : more.idxOf? Ascii.greater with
  | none => rfl
  | some k =>
    have place := lt_of_idxOf? found
    simp only [Option.map_some]
    rw [h.tail.tail.slice_take (k := k) (by omega) (by omega), ok_bind,
      List.length_take_of_le (by omega)]
    rfl

theorem opening_name {more : Bytes} (names : List Bytes)
    (h : Left s i (b :: Ascii.question :: Ascii.less :: more))
    (behind : ∀ t, more ≠ Ascii.equals :: t) (behind' : ∀ t, more ≠ Ascii.exclamation :: t) :
    opening s names i = groupName s names (i + 1) := by
  have sign : ∀ x, x ≠ Ascii.less →
      ¬ [Ascii.question, x].isPrefixOf (Ascii.question :: Ascii.less :: more) = true := by
    intro x hx
    exact not_isPrefixOf fun t eq => hx (List.cons.inj (List.cons.inj eq).2).1.symm
  have look : ∀ x, (∀ t, more ≠ x :: t) →
      ¬ [Ascii.question, Ascii.less, x].isPrefixOf (Ascii.question :: Ascii.less :: more) = true := by
    intro x hx
    exact not_isPrefixOf fun t eq => hx t (List.cons.inj (List.cons.inj eq).2).2
  unfold opening
  dsimp only
  rw [h.tail.suffix, ok_bind, if_neg (sign _ (by decide)), if_neg (sign _ (by decide)),
    if_neg (sign _ (by decide)), if_neg (look _ behind), if_neg (look _ behind')]
  exact if_pos rfl

theorem opening_invalid {more : Bytes} (names : List Bytes)
    (h : Left s i (b :: Ascii.question :: more))
    (sign : ∀ x ∈ [Ascii.colon, Ascii.equals, Ascii.exclamation, Ascii.less], ∀ t, more ≠ x :: t) :
    opening s names i = fault (i + 1) .invalidGroup := by
  have other : ∀ x l, (∀ t, more ≠ x :: t) →
      ¬ (Ascii.question :: x :: l).isPrefixOf (Ascii.question :: more) = true := by
    intro x l hx
    exact not_isPrefixOf fun t eq => hx (l ++ t) (List.cons.inj eq).2
  unfold opening
  dsimp only
  rw [h.tail.suffix, ok_bind, if_neg (other _ _ (sign _ (by simp))),
    if_neg (other _ _ (sign _ (by simp))), if_neg (other _ _ (sign _ (by simp))),
    if_neg (other _ _ (sign _ (by simp))), if_neg (other _ _ (sign _ (by simp))),
    if_neg (other _ _ (sign _ (by simp)))]
  exact if_pos rfl

theorem opening_plain (names : List Bytes) (h : Left s i (b :: rest))
    (sign : ∀ t, rest ≠ Ascii.question :: t) :
    opening s names i = .ok (.capture, [], i + 1) := by
  have other : ∀ l, ¬ (Ascii.question :: l).isPrefixOf rest = true := by
    intro l
    exact not_isPrefixOf fun t eq => sign (l ++ t) eq
  unfold opening
  dsimp only
  rw [h.tail.suffix, ok_bind, if_neg (other _), if_neg (other _), if_neg (other _),
    if_neg (other _), if_neg (other _), if_neg (other _), if_neg (other _)]
  rfl

theorem opening_eq (names : List Bytes) (h : Left s i (b :: rest)) :
    opening s names i =
      match Lexer.opening names rest with
      | .ok r => .ok (r.1, r.2.1, i + r.2.2)
      | .error f => fault (i + f.offset) f.cause := by
  fun_cases Lexer.opening names rest with
  | case1 | case2 | case3 | case4 | case5 =>
    unfold opening
    dsimp only
    rw [h.tail.suffix]
    rfl
  | case6 more behind behind' closed =>
    rw [opening_name names h behind behind', groupName_eq names h.tail, closed]
  | case7 more behind behind' name after closed invalid =>
    rw [opening_name names h behind behind', groupName_eq names h.tail, closed]
    exact if_pos invalid
  | case8 more behind behind' name after closed valid duplicate =>
    rw [opening_name names h behind behind', groupName_eq names h.tail, closed]
    exact (if_neg valid).trans (if_pos duplicate)
  | case9 more behind behind' name after closed valid new =>
    rw [opening_name names h behind behind', groupName_eq names h.tail, closed]
    refine ((if_neg valid).trans (if_neg new)).trans ?_
    dsimp only
    congr 3
    omega
  | case10 more colon equals exclamation _ _ less =>
    refine opening_invalid names h fun x hx => ?_
    simp only [List.mem_cons, List.not_mem_nil, or_false] at hx
    rcases hx with rfl | rfl | rfl | rfl
    · exact colon
    · exact equals
    · exact exclamation
    · exact less
  | case11 =>
    rename_i sign
    exact opening_plain names h sign

theorem braces?_eq (rest : Bytes) :
    Lexer.braces? rest =
      match Ascii.cut? Ascii.closeBrace rest with
      | none => .ok none
      | some (inner, _) => (innerBounds inner).map (·.map fun b => (b.1, b.2, inner.length + 2)) := by
  unfold Lexer.braces? innerBounds
  cases Ascii.cut? Ascii.closeBrace rest with
  | none => rfl
  | some cut =>
    dsimp only
    generalize ((Ascii.cut? Ascii.comma cut.1).map fun p => (p.1, some p.2)).getD (cut.1, none) =
      parts
    cases Ascii.isDecimal parts.1 with
    | false => rfl
    | true =>
      cases number? parts.1 with
      | none => rfl
      | some m =>
        rcases parts.2 with _ | _ | ⟨d, digits⟩
        · rfl
        · rfl
        · dsimp only
          cases Ascii.isDecimal (d :: digits) with
          | false => rfl
          | true =>
            cases number? (d :: digits) with
            | none => rfl
            | some n => by_cases lt : n < m <;> simp only [lt] <;> rfl

theorem braces_eq (h : Left s i (Ascii.openBrace :: rest)) :
    braces s i = blamed i (Lexer.braces? rest) := by
  rw [braces, h.suffix, ok_bind, braces?_eq, Ascii.cut?_eq, List.idxOf?_cons,
    if_neg (by decide)]
  cases found : rest.idxOf? Ascii.closeBrace with
  | none => rfl
  | some k =>
    have place := lt_of_idxOf? found
    simp only [Option.map_some]
    rw [h.tail.slice_take (k := k) (by omega) (by omega), ok_bind,
      List.length_take_of_le (by omega)]
    rcases innerBounds (rest.take k) with cause | _ | _ <;> rfl

/-- The signs that bounds start with. -/
def IsBoundSign (b : UInt8) : Prop :=
  b = Ascii.plus ∨ b = Ascii.star ∨ b = Ascii.question ∨ b = Ascii.openBrace

theorem bounds_of_not_sign (h : ¬ IsBoundSign b) : bounds s i b = .ok none := by
  simp only [IsBoundSign, not_or] at h
  obtain ⟨plus, star, question, brace⟩ := h
  unfold bounds
  split
  · contradiction
  · contradiction
  · contradiction
  · contradiction
  · rfl

theorem bounds?_of_not_sign (h : ¬ IsBoundSign b) : Lexer.bounds? b rest = .ok none := by
  simp only [IsBoundSign, not_or] at h
  obtain ⟨plus, star, question, brace⟩ := h
  unfold Lexer.bounds?
  split
  · contradiction
  · contradiction
  · contradiction
  · contradiction
  · rfl

theorem bounds_eq (h : Left s i (b :: rest)) : bounds s i b = blamed i (Lexer.bounds? b rest) := by
  by_cases sign : IsBoundSign b
  · rcases sign with rfl | rfl | rfl | rfl
    · rfl
    · rfl
    · rfl
    · exact braces_eq h
  · rw [bounds_of_not_sign sign, bounds?_of_not_sign sign]
    rfl

theorem isAt_eq {l : Bytes} (h : Left s i l) (c : UInt8) :
    isAt s i c = .ok (l.head? == some c) := by
  cases l with
  | nil => exact h.isAt_nil c
  | cons b rest => exact h.isAt_cons c

theorem quantifier_eq (h : Left s i (b :: rest)) :
    quantifier s i = blamed i (Lexer.count? b rest) := by
  have length := h.length_cons
  rw [quantifier, if_neg (by omega), h.byteAt, ok_bind]
  rw [bounds_eq h]
  unfold Lexer.count?
  rcases read : Lexer.bounds? b rest with cause | _ | ⟨m, n, w⟩
  · rfl
  · rfl
  · obtain ⟨positive, bounded⟩ := (Lexer.bounds?_eq_some.mp read).width
    simp only [blamed, ok_bind]
    rw [isAt_eq (h.after positive bounded), ok_bind]
    simp only [beq_iff_eq]
    split <;> rfl

theorem quantifier_end (h : Left s i []) : quantifier s i = .ok none := by
  have length := h.length_nil
  rw [quantifier, if_pos (by omega)]
  rfl

end Groups

/-! ## 2. Leaves, anchors and references

One equation for each function, from what is left to what is read.  The order in which meanings
are tried is the same for both, so the proofs follow it. -/

/-- What a reading at `i` becomes: a leaf, an anchor or a reference. -/
def placed (st : State) (i : Nat) : Except Lexer.Fault Lexer.Reading → Reads (Node × Nat × State)
  | .error f => fault (i + f.offset) f.cause
  | .ok r =>
    let site : Site := ⟨st.used + r.nodes, i, i + r.width⟩
    let later : State := { st with used := st.used + r.nodes }
    match r.token with
    | .leaf shape => .ok (Parser.leaf st.used site shape, i + r.width, later)
    | .anchor k => .ok (.anchor site k, i + r.width, later)
    | .reference index name =>
      .ok (.reference ⟨site, index, name⟩, i + r.width,
        { later with references := st.references ++ [⟨site, index, name⟩] })
    -- Nothing else is read by itself.
    | _ => .error (.outside i)

section Atoms

variable {flags : Flags} {total : Nat} {s rest : Bytes} {st : State} {i : Nat} {b : UInt8}

theorem digitsEnd_eq {l : Bytes} (h : Left s i l) :
    digitsEnd s i = .ok (i + (l.takeWhile Ascii.isDigit).length) := by
  have length := h.length
  induction l generalizing i with
  | nil =>
    rw [List.length_nil] at length
    rw [digitsEnd, dif_neg (by omega)]
    rfl
  | cons b rest ih =>
    rw [List.length_cons] at length
    rw [digitsEnd, dif_pos (by omega), h.byteAt, ok_bind, List.takeWhile_cons]
    split
    · rw [ih h.tail (by omega), List.length_cons, Nat.add_assoc, Nat.add_comm 1]
    · rfl

theorem numeric_eq {e : UInt8} {more : Bytes} (h : Left s i (b :: e :: more)) :
    numeric flags total s st i =
      match (number? ((e :: more).takeWhile Ascii.isDigit)).filter (· ≤ total) with
      | some n =>
        .ok (some (st.refer i (i + ((e :: more).takeWhile Ascii.isDigit).length + 1) n []))
      | none =>
        if flags.unicode then
          fault i (.undefinedGroup ((e :: more).takeWhile Ascii.isDigit))
        else .ok none := by
  have digits := List.takeWhile_prefix Ascii.isDigit (l := e :: more)
  rw [numeric, digitsEnd_eq h.tail, ok_bind, h.tail.slice_take digits.length_le rfl, ok_bind,
    ← List.prefix_iff_eq_take.mp digits, Nat.add_right_comm i 1]
  rfl

theorem named_less {e : UInt8} {text : Bytes} (h : Left s i (b :: e :: Ascii.less :: text)) :
    named flags s st i =
      match Ascii.cut? Ascii.greater text with
      | none => fault i .unclosedReference
      | some (name, _) => .ok (some (st.refer i (i + name.length + 4) 0 name)) := by
  have after := h.tail.tail
  rw [named, after.suffix, ok_bind, if_pos (by simp), Ascii.cut?_eq,
    List.idxOf?_cons, if_neg (by decide)]
  cases found : text.idxOf? Ascii.greater with
  | none => rfl
  | some k =>
    have place := lt_of_idxOf? found
    simp only [Option.map_some]
    rw [after.tail.slice_take (k := k) (by omega) (by omega), ok_bind,
      List.length_take_of_le (by omega)]
    rw [pure_eq]
    congr 3
    omega

theorem named_of_ne {e : UInt8} {more : Bytes} (h : Left s i (b :: e :: more))
    (hm : ∀ text, more ≠ Ascii.less :: text) :
    named flags s st i =
      if flags.unicode then fault i .invalidNamedReference else .ok none := by
  rw [named, h.tail.tail.suffix, ok_bind, if_neg (not_isPrefixOf hm)]
  rfl

/-- A character escape, as the reader of lexemes has it. -/
def charReading (unicode : Bool) (e : UInt8) (more : Bytes) : Except Lexer.Fault Lexer.Reading :=
  match Lexer.charEscape unicode e more with
  | .ok c => .ok ⟨.leaf (.char c.1), 1, c.2⟩
  | .error cause => .error ⟨0, cause⟩

theorem char_eq {e : UInt8} {more : Bytes} (h : Left s i (b :: e :: more)) :
    char flags s st i = placed st i (charReading flags.unicode e more) := by
  rw [char, charEscape_eq h, charReading]
  cases Lexer.charEscape flags.unicode e more <;> rfl

theorem unnamed_eq {e : UInt8} {more : Bytes} (h : Left s i (b :: e :: more)) :
    unnamed flags total s st i =
      placed st i
        (match Lexer.property? flags.unicode e more with
        | some (.ok p) => .ok ⟨.leaf (.property p.1), 1, p.2⟩
        | some (.error f) => .error f
        | none =>
          if Ascii.isDigit e && e != Ascii.byte '0' then
            match (number? ((e :: more).takeWhile Ascii.isDigit)).filter (· ≤ total) with
            | some n =>
              .ok ⟨.reference n [], 1, ((e :: more).takeWhile Ascii.isDigit).length + 1⟩
            | none =>
              if flags.unicode then
                .error ⟨0, .undefinedGroup ((e :: more).takeWhile Ascii.isDigit)⟩
              else charReading flags.unicode e more
          else charReading flags.unicode e more) := by
  rw [unnamed, property_eq h]
  rcases Lexer.property? flags.unicode e more with _ | f | p
  · dsimp only
    rw [ok_bind, h.tail.byteAt, ok_bind]
    dsimp only
    split
    · rw [numeric_eq h]
      cases (number? ((e :: more).takeWhile Ascii.isDigit)).filter (· ≤ total) with
      | some n => rfl
      | none =>
        dsimp only
        split
        · rfl
        · exact char_eq h
    · exact char_eq h
  · rfl
  · rfl

/-- No group is named where a property or a number stands. -/
theorem property?_eq_none {unicode : Bool} (more : Bytes) :
    Lexer.property? unicode (Ascii.byte 'k') more = none := by
  cases unicode <;> rfl

theorem escape_eq (h : Left s i (b :: rest)) :
    escape flags total s st i = placed st i (Lexer.escape flags total rest) := by
  have length := h.length
  unfold escape Lexer.escape
  cases rest with
  | nil =>
    rw [List.length_singleton] at length
    rw [if_pos (by omega)]
    rfl
  | cons e more =>
    rw [List.length_cons, List.length_cons] at length
    rw [if_neg (by omega), classEscape_eq h, ok_bind]
    dsimp only
    cases Lexer.classEscape? e with
    | some k => rfl
    | none =>
      dsimp only
      rw [h.tail.byteAt, ok_bind]
      split
      · rfl
      split
      · rfl
      split
      · rename_i letter
        split
        · rename_i text
          rw [named_less h]
          rcases Ascii.cut? Ascii.greater text with _ | ⟨name, after⟩ <;> rfl
        · rename_i other
          rw [named_of_ne h other]
          split
          · rfl
          · rw [ok_bind]
            dsimp only
            rw [unnamed_eq h, letter, property?_eq_none]
            rfl
      · exact unnamed_eq h

/-- A class, whose reader has its faults from the start of the source. -/
theorem class_eq (h : Left s i (b :: rest)) :
    (bracket flags.unicode s st.used i).map
        (fun k => ({ st with used := k.2.1 } : State).leaf i k.2.2 (.charClass k.1)) =
      placed st i
        (match Lexer.charClass flags.unicode i rest with
        | .ok (k, nodes, stop) => .ok ⟨.leaf (.charClass k), nodes + 1, stop - i⟩
        | .error f => .error ⟨f.offset - i, f.cause⟩) := by
  rw [bracket_eq _ h]
  rcases read : Lexer.charClass flags.unicode i rest with f | ⟨k, nodes, stop⟩
  · have := (Lexer.offset_of_charClass read).1
    simp only [counted, placed, map_fault]
    congr 1
    omega
  · have after : i < stop := (Lexer.extent_of_charClass read).1
    have ids : nodes + st.used + 1 = st.used + (nodes + 1) := by omega
    simp only [counted, placed, map_ok, State.leaf, State.count, Parser.leaf, ids,
      Nat.add_sub_cancel' (Nat.le_of_lt after)]

theorem atom_eq (names : List Bytes) {choices : Nat → State → Reads (Node × Nat × State)}
    (h : Left s i (b :: rest))
    (single : b ≠ Ascii.openParen ∧ b ≠ Ascii.closeParen ∧ b ≠ Ascii.pipe) :
    atom flags total s choices st i =
      placed st i (Lexer.fresh flags total names i b rest) := by
  unfold atom Lexer.fresh
  rw [h.byteAt, ok_bind]
  have char : (charAt s i).map (fun d => st.leaf i (i + d.2) (.char d.1)) =
      placed st i (.ok ⟨.leaf (.char (Utf8.decode b rest).1), 1, (Utf8.decode b rest).2⟩) := by
    rw [h.charAt_cons]
    rfl
  dsimp only
  rw [char]
  split
  case h_1 => exact absurd rfl single.1
  case h_2 => exact class_eq h
  case h_6 => exact escape_eq h
  case h_10 =>
    rw [quantifier_eq h]
    rcases read : Lexer.braces? rest with cause | _ | ⟨m, n, w⟩
    · simp only [Lexer.count?, Lexer.bounds?, read]
      cases flags.unicode <;> rfl
    · simp only [Lexer.count?, Lexer.bounds?, read]
      cases flags.unicode <;> rfl
    · simp only [Lexer.count?, Lexer.bounds?, read]
      by_cases lazy : (rest.drop (w - 1)).head? = some Ascii.question
      · rw [if_pos lazy]
        rfl
      · rw [if_neg lazy]
        rfl
  case h_11 | h_12 =>
    cases flags.unicode
    · rfl
    · rfl
  case h_13 =>
    -- No byte that means something is left.
    split <;> first | rfl | simp_all
  all_goals rfl

end Atoms

/-! ## 3. Counting groups

Both count by walking over the bytes, and the offset walks along with what is left. -/

section Counting

variable {s l : Bytes} {i n : Nat} {inClass : Bool}

/-- One round of the count. -/
theorem countFrom_cons {b : UInt8} {rest : Bytes} (h : Left s i (b :: rest)) (count : Nat) :
    countFrom s (n + 1) inClass i count =
      match b with
      | Ascii.backslash => countFrom s n inClass (i + 2) count
      | Ascii.openBracket => countFrom s n true (i + 1) count
      | Ascii.closeBracket => countFrom s n false (i + 1) count
      | Ascii.openParen =>
        countFrom s n inClass (i + 1)
          (count + if !inClass && Lexer.opensCapture rest then 1 else 0)
      | _ => countFrom s n inClass (i + 1) count := by
  have length := h.length_cons
  rw [countFrom, if_neg (by omega), h.byteAt, ok_bind]
  split
  · rfl
  · rfl
  · rfl
  · cases inClass with
    | true => rfl
    | false =>
      rw [if_neg Bool.false_ne_true, h.tail.suffix, ok_bind]
      cases Lexer.opensCapture rest <;> rfl
  · rename_i backslash bracket closing paren
    split
    · exact (backslash rfl).elim
    · exact (bracket rfl).elim
    · exact (closing rfl).elim
    · exact (paren rfl).elim
    · rfl

theorem countFrom_eq (h : Left s i l) (calls : l.length < n) (count : Nat) :
    countFrom s n inClass i count = .ok (count + Lexer.countCapturesFrom inClass l) := by
  fun_induction Lexer.countCapturesFrom inClass l generalizing n i count with
    obtain ⟨n, rfl⟩ : ∃ m, n = m + 1 := ⟨n - 1, by omega⟩
  | case1 =>
    have length := h.length_nil
    rw [countFrom, if_pos (by omega)]
    rfl
  | case2 =>
    -- A backslash at the end is skipped together with a byte that is not there.
    have length := h.length
    rw [List.length_singleton] at length calls
    obtain ⟨n, rfl⟩ : ∃ m, n = m + 1 := ⟨n - 1, by omega⟩
    rw [countFrom_cons h]
    exact if_pos (by omega)
  | case3 inClass e rest ih =>
    rw [countFrom_cons h]
    rw [List.length_cons, List.length_cons] at calls
    exact ih h.tail.tail (by omega) count
  | case4 inClass rest ih | case5 inClass rest ih =>
    rw [countFrom_cons h]
    exact ih h.tail (by rwa [List.length_cons, Nat.add_lt_add_iff_right] at calls) count
  | case6 inClass rest ih =>
    rw [countFrom_cons h, ← Nat.add_assoc]
    exact ih h.tail (by rwa [List.length_cons, Nat.add_lt_add_iff_right] at calls) _
  | case7 inClass b rest _ _ _ _ ih =>
    rw [countFrom_cons h]
    split
    · contradiction
    · contradiction
    · contradiction
    · contradiction
    · exact ih h.tail (by rwa [List.length_cons, Nat.add_lt_add_iff_right] at calls) count

theorem countCaptures_eq (s : Bytes) : countCaptures s = .ok (Lexer.countCaptures s) := by
  have start : Left s 0 s := ⟨Nat.zero_le _, rfl⟩
  have read : countFrom s (s.length + 1) false 0 0 = _ :=
    countFrom_eq start (Nat.lt_succ_self _) 0
  rwa [Nat.zero_add] at read

end Counting

end Descent

end Backtrack
