import CallPool.Proofs.Json.Spelling

/-!
# Only documents are read

Where the machine stands says which bytes have taken it there: the frames that are open stand for
those in front of the value that is being read (`Open`), and what is being read for those behind them
(`Reading`). Every step adds its byte to one of the two, or else the machine is stuck with a text that
has a break or a surplus (`Explains.step`). So a text that is read as a whole is the text of what was
read, which is well spelled.

Main statement: `text_of_scan`.
-/

set_option autoImplicit false

namespace CallPool.Json

/-! ### Bytes and what they stand for -/

/-- A byte that is read as a blank is the byte of that blank. -/
theorem Blank.byte_of_ofByte? {b : UInt8} {g : Blank} (is_blank : Blank.ofByte? b = some g) :
    g.byte = b := by
  unfold Blank.ofByte? at is_blank
  split at is_blank
  · next same => cases is_blank; exact same.symm
  · split at is_blank
    · next same => cases is_blank; exact same.symm
    · split at is_blank
      · next same => cases is_blank; exact same.symm
      · split at is_blank
        · next same => cases is_blank; exact same.symm
        · cases is_blank

/-- A byte that is read as a digit is the byte of that digit. -/
theorem Digit.byte_of_ofByte? {b : UInt8} {d : Digit} (is_digit : Digit.ofByte? b = some d) :
    d.byte = b := by
  unfold Digit.ofByte? at is_digit
  split at is_digit
  · next range =>
    cases is_digit
    refine UInt8.toNat.inj ?_
    simp only [Digit.byte, UInt8.toNat_add, UInt8.toNat_ofNat', UInt8.reduceToNat]
    omega
  · cases is_digit

/-- A byte that is read as a short escape is the letter of that escape. -/
theorem ShortEscape.letter_of_ofLetter? {b : UInt8} {e : ShortEscape}
    (is_letter : ShortEscape.ofLetter? b = some e) : e.letter = b := by
  unfold ShortEscape.ofLetter? at is_letter
  grind [ShortEscape.letter]

/-! ### Lists and objects, element by element -/

/-- The bytes of an element. -/
def itemText (i : Item Doc) : List UInt8 := i.before.text ++ i.value.text ++ i.after.text

/-- The bytes of a member up to its value. -/
def headText (before : Gap) (key : Quoted) (beforeColon afterColon : Gap) : List UInt8 :=
  before.text ++ Quoted.text key ++ beforeColon.text ++ 0x3A :: afterColon.text

/-- The bytes of a member. -/
def memberText (m : Member Doc) : List UInt8 :=
  headText m.before m.key m.beforeColon m.afterColon ++ m.value.text ++ m.after.text

/-- Further items are spelled each behind a comma. -/
theorem moreItemsText_eq (is : List (Item Doc)) :
    moreItemsText is = is.flatMap fun i => 0x2C :: itemText i := by
  induction is with
  | nil => rfl
  | cons i is ih =>
    obtain ⟨before, value, after⟩ := i
    rw [moreItemsText, ih]
    simp [itemText]

/-- Further members are spelled each behind a comma. -/
theorem moreMembersText_eq (ms : List (Member Doc)) :
    moreMembersText ms = ms.flatMap fun m => 0x2C :: memberText m := by
  induction ms with
  | nil => rfl
  | cons m ms ih =>
    obtain ⟨before, key, beforeColon, afterColon, value, after⟩ := m
    rw [moreMembersText, ih]
    simp [memberText, headText]

/-- Commas may be counted with the elements in front of them. -/
theorem itemsText_concat (is : List (Item Doc)) (i : Item Doc) :
    itemsText (is ++ [i]) = (is.flatMap fun i => itemText i ++ [0x2C]) ++ itemText i := by
  cases is with
  | nil => simp [itemsText, itemText, moreItemsText]
  | cons first is =>
    have shifted : ∀ (front : List UInt8), front ++ moreItemsText (is ++ [i]) =
        front ++ [0x2C] ++ (is.flatMap fun i => itemText i ++ [0x2C]) ++ itemText i := by
      induction is with
      | nil => simp [moreItemsText_eq]
      | cons next is ih =>
        intro front
        have rest := ih (front ++ 0x2C :: itemText next)
        simp only [moreItemsText_eq] at rest ⊢
        simpa using rest
    simpa [itemsText, itemText] using shifted (itemText first)

/-- A last member is spelled behind the others and a comma. -/
theorem membersText_concat (ms : List (Member Doc)) (m : Member Doc) :
    membersText (ms ++ [m]) = (ms.flatMap fun m => memberText m ++ [0x2C]) ++ memberText m := by
  cases ms with
  | nil => simp [membersText, memberText, headText, moreMembersText]
  | cons first ms =>
    have shifted : ∀ (front : List UInt8), front ++ moreMembersText (ms ++ [m]) =
        front ++ [0x2C] ++ (ms.flatMap fun m => memberText m ++ [0x2C]) ++ memberText m := by
      induction ms with
      | nil => simp [moreMembersText_eq]
      | cons next ms ih =>
        intro front
        have rest := ih (front ++ 0x2C :: memberText next)
        simp only [moreMembersText_eq] at rest ⊢
        simpa using rest
    simpa [membersText, memberText, headText] using shifted (memberText first)

/-- Items are well spelled if each one is. -/
theorem itemsWellSpelled_iff {is : List (Item Doc)} :
    ItemsWellSpelled is ↔ ∀ i ∈ is, i.value.WellSpelled := by
  induction is with
  | nil => simp [ItemsWellSpelled]
  | cons i is ih => rw [ItemsWellSpelled, ih, List.forall_mem_cons]

/-- Members are well spelled if each name and each value is. -/
theorem membersWellSpelled_iff {ms : List (Member Doc)} :
    MembersWellSpelled ms ↔ ∀ m ∈ ms, Quoted.WellSpelled m.key ∧ m.value.WellSpelled := by
  induction ms with
  | nil => simp [MembersWellSpelled]
  | cons m ms ih => rw [MembersWellSpelled, ih, List.forall_mem_cons, and_assoc]

namespace Scan

/-! ### Numbers -/

/-- The whole part of a number, as far as it has been read. -/
def WholeFits (n : Numeral) : Prop :=
  n.whole ≠ [] ∧ (n.whole.head? = some Digit.zero → n.whole = [Digit.zero])

/-- What has been read of a number, where its reading stands. -/
def NumberFits (n : Numeral) : NumberPart → Prop
  | .sign => n = Numeral.blank true
  | .whole => WholeFits n ∧ n.fraction = none ∧ n.exponent = none
  | .point => WholeFits n ∧ n.fraction = some [] ∧ n.exponent = none
  | .fraction => WholeFits n ∧ (∃ ds, n.fraction = some ds ∧ ds ≠ []) ∧ n.exponent = none
  | .mark => WholeFits n ∧ n.fraction ≠ some [] ∧ ∃ capital, n.exponent = some ⟨capital, .unsigned, []⟩
  | .exponentSign => WholeFits n ∧ n.fraction ≠ some [] ∧
      ∃ capital sign, n.exponent = some ⟨capital, sign, []⟩
  | .exponent => WholeFits n ∧ n.fraction ≠ some [] ∧
      ∃ capital sign ds, n.exponent = some ⟨capital, sign, ds⟩ ∧ ds ≠ []

/-- A number that may end where its reading stands is well spelled. -/
theorem wellSpelled_of_fits {n : Numeral} {part : NumberPart} (fits : NumberFits n part)
    (complete : part.complete = true) : n.WellSpelled := by
  cases part with
  | whole =>
    obtain ⟨⟨some_digit, leading⟩, no_fraction, no_exponent⟩ := fits
    exact ⟨some_digit, leading, by simp [no_fraction], by simp [no_exponent]⟩
  | fraction =>
    obtain ⟨⟨some_digit, leading⟩, ⟨ds, fraction, nonempty⟩, no_exponent⟩ := fits
    exact ⟨some_digit, leading, by simp [fraction, nonempty], by simp [no_exponent]⟩
  | exponent =>
    obtain ⟨⟨some_digit, leading⟩, fraction, capital, sign, ds, exponent, nonempty⟩ := fits
    exact ⟨some_digit, leading, fraction, by simp [exponent, nonempty]⟩
  | _ => cases complete

/-- One more digit of the whole part keeps the numeral fitting, and is spelled behind it. -/
theorem fits_wholeDigit {n n' : Numeral} {part : NumberPart} {d : Digit}
    (fits : NumberFits n .whole) (more : wholeDigit n d = .more n' part) :
    NumberFits n' part ∧ n'.text = n.text ++ [d.byte] := by
  obtain ⟨negative, whole, fraction, exponent⟩ := n
  obtain ⟨⟨some_digit, leading⟩, rfl, rfl⟩ := fits
  unfold wholeDigit at more
  split at more
  · cases more
  · next not_zero =>
    cases more
    refine ⟨⟨⟨by simp, fun zero => ?_⟩, rfl, rfl⟩, by simp [Numeral.text, digitsText]⟩
    obtain ⟨first, rest, rfl⟩ := List.exists_cons_of_ne_nil some_digit
    exact absurd (leading zero) not_zero

/-- One more digit of the fraction keeps the numeral fitting, and is spelled behind it. -/
theorem fits_fractionDigit {n n' : Numeral} {part : NumberPart} {d : Digit} {before : NumberPart}
    (starts : before = .point ∨ before = .fraction) (fits : NumberFits n before)
    (more : fractionDigit n d = .more n' part) :
    NumberFits n' part ∧ n'.text = n.text ++ [d.byte] := by
  cases more
  obtain ⟨whole, ⟨ds, fraction⟩, no_exponent⟩ :
      WholeFits n ∧ (∃ ds, n.fraction = some ds) ∧ n.exponent = none := by
    rcases starts with rfl | rfl
    · exact ⟨fits.1, ⟨[], fits.2.1⟩, fits.2.2⟩
    · obtain ⟨whole, ⟨ds, fraction, _⟩, no_exponent⟩ := fits
      exact ⟨whole, ⟨ds, fraction⟩, no_exponent⟩
  refine ⟨⟨whole, ⟨ds ++ [d], by simp [fraction], by simp⟩, no_exponent⟩, ?_⟩
  simp [Numeral.text, fraction, no_exponent, digitsText]

/-- The mark of the exponent keeps the numeral fitting, and is spelled behind it. -/
theorem fits_exponentMark {n n' : Numeral} {part : NumberPart} {b : UInt8}
    (whole : WholeFits n) (fraction : n.fraction ≠ some []) (no_exponent : n.exponent = none)
    (more : exponentMark n b = .more n' part) :
    NumberFits n' part ∧ n'.text = n.text ++ [b] := by
  unfold exponentMark at more
  split at more
  · next small =>
    cases more
    refine ⟨⟨whole, fraction, false, rfl⟩, ?_⟩
    simp [Numeral.text, no_exponent, Exponent.text, digitsText, small]
  · split at more
    · next large =>
      cases more
      refine ⟨⟨whole, fraction, true, rfl⟩, ?_⟩
      simp [Numeral.text, no_exponent, Exponent.text, digitsText, large]
    · cases more

/-- One more digit of the exponent keeps the numeral fitting, and is spelled behind it. -/
theorem fits_exponentDigit {n n' : Numeral} {part : NumberPart} {d : Digit} (whole : WholeFits n)
    (fraction : n.fraction ≠ some []) {e : Exponent} (exponent : n.exponent = some e)
    (more : exponentDigit n d = .more n' part) :
    NumberFits n' part ∧ n'.text = n.text ++ [d.byte] := by
  cases more
  refine ⟨⟨whole, fraction, e.capital, e.sign, e.digits ++ [d], by simp [exponent], by simp⟩, ?_⟩
  simp [Numeral.text, exponent, Exponent.text, digitsText]

/-- Every byte of a number is added to what has been read of it. -/
theorem fits_numberStep {n n' : Numeral} {part part' : NumberPart} {b : UInt8}
    (fits : NumberFits n part) (more : numberStep n part b = .more n' part') :
    NumberFits n' part' ∧ n'.text = n.text ++ [b] := by
  unfold numberStep at more
  split at more
  case h_1 d is_digit =>
    obtain rfl := fits
    cases more
    rw [← Digit.byte_of_ofByte? is_digit]
    refine ⟨⟨⟨by simp, fun zero => ?_⟩, rfl, rfl⟩, rfl⟩
    rw [Option.some.inj zero]
  case h_2 => cases more
  case h_3 d is_digit =>
    rw [← Digit.byte_of_ofByte? is_digit]
    exact fits_wholeDigit fits more
  case h_4 =>
    split at more
    · next point =>
      cases more
      obtain ⟨whole, no_fraction, no_exponent⟩ := fits
      refine ⟨⟨whole, rfl, no_exponent⟩, ?_⟩
      simp [Numeral.text, no_fraction, no_exponent, digitsText, point]
    · exact fits_exponentMark fits.1 (by simp [fits.2.1]) fits.2.2 more
  case h_5 d is_digit =>
    rw [← Digit.byte_of_ofByte? is_digit]
    exact fits_fractionDigit (.inl rfl) fits more
  case h_6 => cases more
  case h_7 d is_digit =>
    rw [← Digit.byte_of_ofByte? is_digit]
    exact fits_fractionDigit (.inr rfl) fits more
  case h_8 =>
    obtain ⟨whole, ⟨ds, fraction, nonempty⟩, no_exponent⟩ := fits
    exact fits_exponentMark whole (by simp [fraction, nonempty]) no_exponent more
  case h_9 d is_digit =>
    rw [← Digit.byte_of_ofByte? is_digit]
    obtain ⟨whole, fraction, capital, exponent⟩ := fits
    exact fits_exponentDigit whole fraction exponent more
  case h_10 =>
    obtain ⟨whole, fraction, capital, exponent⟩ := fits
    split at more
    · next plus =>
      cases more
      refine ⟨⟨whole, fraction, capital, .plus, by simp [withExponentSign, exponent]⟩, ?_⟩
      simp [Numeral.text, withExponentSign, exponent, Exponent.text, digitsText, plus]
    · split at more
      · next minus =>
        cases more
        refine ⟨⟨whole, fraction, capital, .minus, by simp [withExponentSign, exponent]⟩, ?_⟩
        simp [Numeral.text, withExponentSign, exponent, Exponent.text, digitsText, minus]
      · cases more
  case h_11 d is_digit =>
    rw [← Digit.byte_of_ofByte? is_digit]
    obtain ⟨whole, fraction, capital, sign, exponent⟩ := fits
    exact fits_exponentDigit whole fraction exponent more
  case h_12 => cases more
  case h_13 d is_digit =>
    rw [← Digit.byte_of_ofByte? is_digit]
    obtain ⟨whole, fraction, capital, sign, ds, exponent, _⟩ := fits
    exact fits_exponentDigit whole fraction exponent more
  case h_14 => cases more

/-- A number is left only where it may end. -/
theorem complete_of_done {n : Numeral} {part : NumberPart} {b : UInt8}
    (done : numberStep n part b = .done) : part.complete = true := by
  unfold numberStep at done
  split at done <;> first | rfl | cases done | skip
  split at done
  · cases done
  · split at done <;> cases done

/-! ### Strings -/

/-- What has been read of an escape. -/
def escapeText : EscapePart → List UInt8
  | .outside => []
  | .backslash => [0x5C]
  | .hex digits => 0x5C :: 0x75 :: digits

/-- What has been read of a string, behind its first quote. -/
def piecesText (pieces : Quoted) (part : EscapePart) : List UInt8 :=
  pieces.reverse.flatMap Piece.text ++ escapeText part

/-- Every byte of a string is added to what has been read of it. -/
theorem pieces_stringStep {read : Nat} {pieces pieces' : Quoted} {part part' : EscapePart} {b : UInt8}
    (spelled : Quoted.WellSpelled pieces) (more : stringStep read pieces part b = .more pieces' part') :
    Quoted.WellSpelled pieces' ∧ piecesText pieces' part' = piecesText pieces part ++ [b] := by
  have with_piece : ∀ piece : Piece, piece.WellSpelled → Quoted.WellSpelled (piece :: pieces) :=
    fun piece fits other member => by
      rcases List.mem_cons.1 member with rfl | old
      · exact fits
      · exact spelled other old
  unfold stringStep at more
  split at more
  case h_1 =>
    split at more
    · cases more
    · next not_quote =>
      split at more
      · next backslash =>
        cases more
        exact ⟨spelled, by simp [piecesText, escapeText, backslash]⟩
      · next not_backslash =>
        split at more
        · cases more
        · next printable =>
          cases more
          exact ⟨with_piece _ ⟨printable, not_quote, not_backslash⟩,
            by simp [piecesText, escapeText, Piece.text]⟩
  case h_2 =>
    split at more
    · next is_unit =>
      cases more
      exact ⟨spelled, by simp [piecesText, escapeText, is_unit]⟩
    · split at more
      · next e is_letter =>
        cases more
        exact ⟨with_piece _ trivial, by
          simp [piecesText, escapeText, Piece.text, ShortEscape.letter_of_ofLetter? is_letter]⟩
      · cases more
  case h_3 =>
    split at more
    · next hex =>
      cases more
      exact ⟨with_piece _ hex, by simp [piecesText, escapeText, Piece.text]⟩
    · cases more
  case h_4 =>
    cases more
    exact ⟨spelled, by simp [piecesText, escapeText]⟩

/-- A string is left with its last quote. -/
theorem pieces_of_done {read : Nat} {pieces s : Quoted} {part : EscapePart} {b : UInt8}
    (done : stringStep read pieces part b = .done s) :
    s = pieces.reverse ∧ Quoted.text s = 0x22 :: piecesText pieces part ++ [b] := by
  unfold stringStep at done
  split at done
  case h_1 =>
    split at done
    · next quote =>
      cases done
      exact ⟨rfl, by simp [Quoted.text, piecesText, escapeText, quote]⟩
    · split at done
      · cases done
      · split at done <;> cases done
  case h_2 =>
    split at done
    · cases done
    · split at done <;> cases done
  case h_3 => split at done <;> cases done
  case h_4 => cases done

/-! ### The machine -/

/-- The bytes of elements that have been read, last one first, each with the comma behind it. -/
def itemsDone (done : List (Item Doc)) : List UInt8 :=
  done.reverse.flatMap fun i => itemText i ++ [0x2C]

/-- The bytes of members that have been read, last one first, each with the comma behind it. -/
def membersDone (done : List (Member Doc)) : List UInt8 :=
  done.reverse.flatMap fun m => memberText m ++ [0x2C]

/-- The bytes that open frames stand for. -/
inductive Open : List Frame → List UInt8 → Prop
  | text (before : Gap) : Open [.text before] before.text
  | list {fs : List Frame} {outer : List UInt8} (opened : Open fs outer) (done : List (Item Doc))
      (spelled : ItemsWellSpelled done.reverse) (before : Gap) :
      Open (.list done before :: fs) (outer ++ 0x5B :: (itemsDone done ++ before.text))
  | object {fs : List Frame} {outer : List UInt8} (opened : Open fs outer) (done : List (Member Doc))
      (spelled : MembersWellSpelled done.reverse) (before : Gap) {key : Quoted}
      (name : Quoted.WellSpelled key) (beforeColon afterColon : Gap) :
      Open (.object done before key beforeColon afterColon :: fs)
        (outer ++ 0x7B :: (membersDone done ++ headText before key beforeColon afterColon))

/-- The bytes of what is being read in the innermost frame. -/
inductive Reading : Mode → List UInt8 → Prop
  | value : Reading .value []
  | word {w : Literal} {taken left : List UInt8} (same : taken ++ left = w.text) :
      Reading (.word w left) taken
  | number {n : Numeral} {part : NumberPart} (fits : NumberFits n part) :
      Reading (.number n part) n.text
  | string (pieces : Quoted) (spelled : Quoted.WellSpelled pieces) (part : EscapePart) :
      Reading (.string pieces part) (0x22 :: piecesText pieces part)
  | after {v : Doc} (spelled : v.WellSpelled) (blanks : Gap) :
      Reading (.after v blanks) (v.text ++ blanks.text)
  | key (done : List (Member Doc)) (members : MembersWellSpelled done.reverse) (before : Gap) :
      Reading (.key done before) (0x7B :: (membersDone done ++ before.text))
  | keyString (done : List (Member Doc)) (members : MembersWellSpelled done.reverse) (before : Gap)
      (pieces : Quoted) (spelled : Quoted.WellSpelled pieces) (part : EscapePart) :
      Reading (.keyString done before pieces part)
        (0x7B :: (membersDone done ++ before.text ++ 0x22 :: piecesText pieces part))
  | colon (done : List (Member Doc)) (members : MembersWellSpelled done.reverse) (before : Gap)
      (key : Quoted) (name : Quoted.WellSpelled key) (beforeColon : Gap) :
      Reading (.colon done before key beforeColon)
        (0x7B :: (membersDone done ++ before.text ++ Quoted.text key ++ beforeColon.text))

/-- A text that is not one complete document. -/
def Stuck (t : Text) : Prop := t.surplus ≠ none ∨ t.root.break? ≠ none

/-- These bytes have taken the machine where it is, or it is stuck. -/
def Explains (s : State) (bytes : List UInt8) : Prop :=
  (∃ t, s.mode = .stopped t ∧ Stuck t) ∨
    ∃ outer inner, Open s.frames outer ∧ Reading s.mode inner ∧ bytes = outer ++ inner

/-- What encloses a broken value is broken. -/
theorem break_enclose (b : Break) (fs : List Frame) {d : Doc} (broken : d.break? ≠ none) :
    (enclose b d fs).root.break? ≠ none := by
  induction fs generalizing d with
  | nil => exact broken
  | cons f fs ih =>
    cases f with
    | text before => exact broken
    | list done before => exact ih (by simp [Doc.break?])
    | object done before key beforeColon afterColon => exact ih (by simp [Doc.break?])

/-- A text that breaks off leaves the machine stuck. -/
theorem explains_breakOff (s : State) (b : Break) {d : Doc} (broken : d.break? ≠ none)
    (bytes : List UInt8) : Explains (s.breakOff b d) bytes :=
  .inl ⟨_, rfl, .inr (break_enclose b s.frames broken)⟩

/-- A blank may follow wherever a frame is open. -/
theorem Open.addBlank {f : Frame} {fs : List Frame} {outer : List UInt8} (opened : Open (f :: fs) outer)
    (g : Blank) : Open (f.addBlank g :: fs) (outer ++ [g.byte]) := by
  cases opened with
  | text before =>
    have same : Gap.text before ++ [g.byte] = Gap.text (before ++ [g]) := by simp [Gap.text]
    rw [same]
    exact .text _
  | list opened done spelled before =>
    have longer := Open.list opened done spelled (before ++ [g])
    simpa [Gap.text, Frame.addBlank] using longer
  | object opened done spelled before name beforeColon afterColon =>
    have longer := Open.object opened done spelled before name beforeColon (afterColon ++ [g])
    simpa [headText, Gap.text, Frame.addBlank] using longer

/-- A list or an object that is left with its bracket. -/
theorem text_list_concat (is : List (Item Doc)) (i : Item Doc) :
    (Doc.list (is ++ [i]) (.closed [])).text =
      0x5B :: ((is.flatMap fun i => itemText i ++ [0x2C]) ++ itemText i ++ [0x5D]) := by
  simp [Doc.text, itemsText_concat, Gap.text]

/-- The text of an object with a last member. -/
theorem text_object_concat (ms : List (Member Doc)) (m : Member Doc) :
    (Doc.object (ms ++ [m]) (.closed [])).text =
      0x7B :: ((ms.flatMap fun m => memberText m ++ [0x2C]) ++ memberText m ++ [0x7D]) := by
  simp [Doc.text, membersText_concat, Gap.text]

/-- Items with one more are well spelled if they and it are. -/
theorem itemsWellSpelled_concat {is : List (Item Doc)} {i : Item Doc} (others : ItemsWellSpelled is)
    (spelled : i.value.WellSpelled) : ItemsWellSpelled (is ++ [i]) := by
  rw [itemsWellSpelled_iff] at others ⊢
  intro j member
  rcases List.mem_append.1 member with old | last
  · exact others j old
  · rw [List.mem_singleton.1 last]
    exact spelled

/-- Members with one more are well spelled if they and it are. -/
theorem membersWellSpelled_concat {ms : List (Member Doc)} {m : Member Doc}
    (others : MembersWellSpelled ms) (name : Quoted.WellSpelled m.key)
    (spelled : m.value.WellSpelled) : MembersWellSpelled (ms ++ [m]) := by
  rw [membersWellSpelled_iff] at others ⊢
  intro n member
  rcases List.mem_append.1 member with old | last
  · exact others n old
  · rw [List.mem_singleton.1 last]
    exact ⟨name, spelled⟩

/-- A byte behind a complete value. -/
theorem explains_afterStep (m : Mode) {fs : List Frame} (read : Nat) {outer : List UInt8} {v : Doc}
    (opened : Open fs outer) (spelled : v.WellSpelled) (blanks : Gap) (b : UInt8) :
    Explains (afterStep ⟨m, fs, read⟩ v blanks b) (outer ++ (v.text ++ blanks.text) ++ [b]) := by
  unfold afterStep
  simp only []
  split
  · next g is_blank =>
    refine .inr ⟨_, _, opened, .after spelled (blanks ++ [g]), ?_⟩
    simp [Gap.text, Blank.byte_of_ofByte? is_blank]
  · cases opened with
    | text before => exact .inl ⟨_, rfl, .inl (by simp)⟩
    | list opened done items before =>
      have all := itemsWellSpelled_concat (i := ⟨before, v, blanks⟩) items spelled
      simp only []
      split
      · next comma =>
        refine .inr ⟨_, [], .list opened (⟨before, v, blanks⟩ :: done) ?_ [], .value, ?_⟩
        · rw [List.reverse_cons]
          exact all
        · simp [itemsDone, itemText, Gap.text, comma]
      · split
        · next bracket =>
          rw [List.reverse_cons]
          refine .inr ⟨_, _, opened, .after (v := .list _ (.closed []))
            ⟨all, [], rfl, fun _ => rfl⟩ [], ?_⟩
          rw [text_list_concat]
          simp [itemsDone, itemText, Gap.text, bracket]
        · exact .inl ⟨_, rfl, .inr (break_enclose _ _ (by simp [Doc.break?]))⟩
    | @object _ _ opened done members before key name beforeColon afterColon =>
      have all := membersWellSpelled_concat
        (m := ⟨before, key, beforeColon, afterColon, v, blanks⟩) members name spelled
      simp only []
      split
      · next comma =>
        refine .inr ⟨_, _, opened,
          .key (⟨before, key, beforeColon, afterColon, v, blanks⟩ :: done) ?_ [], ?_⟩
        · rw [List.reverse_cons]
          exact all
        · simp [membersDone, memberText, Gap.text, comma]
      · split
        · next bracket =>
          rw [List.reverse_cons]
          refine .inr ⟨_, _, opened, .after (v := .object _ (.closed []))
            ⟨all, [], rfl, fun _ => rfl⟩ [], ?_⟩
          rw [text_object_concat]
          simp [membersDone, memberText, Gap.text, bracket]
        · exact .inl ⟨_, rfl, .inr (break_enclose _ _ (by simp [Doc.break?]))⟩

/-- What a byte starts where a value is wanted. -/
theorem reading_of_opening {b : UInt8} {m : Mode} (opens : opening b = some m) : Reading m [b] := by
  unfold opening at opens
  split at opens
  · next quote =>
    cases opens
    rw [quote]
    exact .string [] (by simp [Quoted.WellSpelled]) .outside
  · split at opens
    · next n =>
      cases opens
      rw [n]
      exact .word rfl
    · split at opens
      · next t =>
        cases opens
        rw [t]
        exact .word rfl
      · split at opens
        · next f =>
          cases opens
          rw [f]
          exact .word rfl
        · split at opens
          · next minus =>
            cases opens
            rw [minus]
            exact .number rfl
          · obtain ⟨d, is_digit, rfl⟩ := Option.map_eq_some_iff.1 opens
            rw [← Digit.byte_of_ofByte? is_digit]
            refine .number ⟨⟨by simp, fun zero => ?_⟩, rfl, rfl⟩
            rw [Option.some.inj zero]

/-- A byte where a value is wanted. -/
theorem explains_valueStep {m : Mode} {fs : List Frame} {read : Nat} {outer : List UInt8}
    (opened : Open fs outer) (b : UInt8) : Explains (valueStep ⟨m, fs, read⟩ b) (outer ++ [b]) := by
  unfold valueStep
  simp only []
  split
  · next g is_blank =>
    rw [← Blank.byte_of_ofByte? is_blank]
    cases fs with
    | nil => cases opened
    | cons f rest => exact .inr ⟨_, [], opened.addBlank g, .value, (List.append_nil _).symm⟩
  · split
    · next bracket =>
      refine .inr ⟨_, [], .list opened [] trivial [], .value, ?_⟩
      simp [itemsDone, Gap.text, bracket]
    · split
      · next brace =>
        refine .inr ⟨outer, _, opened, .key [] trivial [], ?_⟩
        simp [membersDone, Gap.text, brace]
      · split
        · next m' opens => exact .inr ⟨outer, _, opened, reading_of_opening opens, rfl⟩
        · split
          · next before rest =>
            cases opened with
            | @list _ outer opened _ _ _ =>
              split
              · next bracket =>
                refine .inr ⟨outer, _, opened, .after (v := .list [] (.closed before))
                  ⟨trivial, before, rfl, fun some_there => absurd rfl some_there⟩ [], ?_⟩
                simp [itemsDone, Doc.text, itemsText, Gap.text, bracket]
              · exact explains_breakOff _ _ (by simp [Doc.break?]) _
          · exact explains_breakOff _ _ (by simp [Doc.break?]) _
          · exact explains_breakOff _ _ (by simp [Doc.break?]) _

/-- A byte where a key is wanted. -/
theorem explains_keyStep {m : Mode} {fs : List Frame} {read : Nat} {outer : List UInt8}
    {done : List (Member Doc)} (opened : Open fs outer) (members : MembersWellSpelled done.reverse)
    (before : Gap) (b : UInt8) : Explains (keyStep ⟨m, fs, read⟩ done before b)
      (outer ++ 0x7B :: (membersDone done ++ before.text) ++ [b]) := by
  unfold keyStep
  simp only []
  split
  · next g is_blank =>
    refine .inr ⟨outer, _, opened, .key done members (before ++ [g]), ?_⟩
    simp [Gap.text, Blank.byte_of_ofByte? is_blank]
  · split
    · next quote =>
      refine .inr ⟨outer, _, opened, .keyString done members before []
        (by simp [Quoted.WellSpelled]) .outside, ?_⟩
      simp [piecesText, escapeText, quote]
    · split
      · next brace =>
        obtain ⟨brace, none_there⟩ := brace
        obtain rfl : done = [] := by simpa using none_there
        refine .inr ⟨outer, _, opened, .after (v := .object [] (.closed before))
          ⟨trivial, before, rfl, fun some_there => absurd rfl some_there⟩ [], ?_⟩
        simp [membersDone, Doc.text, membersText, Gap.text, brace]
      · exact explains_breakOff _ _ (by simp [Doc.break?]) _

/-- A byte where a colon is wanted. -/
theorem explains_colonStep {m : Mode} {fs : List Frame} {read : Nat} {outer : List UInt8}
    {done : List (Member Doc)} {key : Quoted} (opened : Open fs outer)
    (members : MembersWellSpelled done.reverse) (before : Gap) (name : Quoted.WellSpelled key)
    (beforeColon : Gap) (b : UInt8) : Explains (colonStep ⟨m, fs, read⟩ done before key beforeColon b)
      (outer ++ 0x7B :: (membersDone done ++ before.text ++ Quoted.text key ++ beforeColon.text) ++
        [b]) := by
  unfold colonStep
  simp only []
  split
  · next g is_blank =>
    refine .inr ⟨outer, _, opened, .colon done members before key name (beforeColon ++ [g]), ?_⟩
    simp [Gap.text, Blank.byte_of_ofByte? is_blank]
  · split
    · next colon =>
      refine .inr ⟨_, [], .object opened done members before name beforeColon [], .value, ?_⟩
      simp [headText, Gap.text, colon]
    · exact explains_breakOff _ _ (by simp [Doc.break?]) _

/-- Every byte is added to what has been read, if it can be used. -/
theorem Explains.step {s : State} {bytes : List UInt8} (h : Explains s bytes) (b : UInt8) :
    Explains (step s b) (bytes ++ [b]) := by
  obtain ⟨m, fs, read⟩ := s
  rcases h with ⟨t, stopped, stuck⟩ | ⟨outer, inner, opened, reading, rfl⟩
  · obtain rfl : m = .stopped t := stopped
    exact .inl ⟨t, rfl, stuck⟩
  · simp only [] at opened reading
    unfold Scan.step
    cases reading with
    | value =>
      rw [List.append_nil]
      exact explains_valueStep opened b
    | @word w _ left same =>
      cases left with
      | nil =>
        rw [List.append_nil] at same
        have read_on := explains_afterStep (.word w []) read opened (v := .literal w)
          trivial [] b
        simpa [Doc.text, same, Gap.text] using read_on
      | cons c left =>
        simp only []
        split
        · next right =>
          subst right
          cases left with
          | nil =>
            refine .inr ⟨outer, _, opened, .after (v := .literal w) trivial [], ?_⟩
            simp [Doc.text, ← same, Gap.text]
          | cons c' left =>
            refine .inr ⟨outer, inner ++ [b], opened, .word ?_, List.append_assoc _ _ _⟩
            rw [← same]
            simp
        · exact explains_breakOff _ _ (by simp [Doc.break?]) _
    | @number n part fits =>
      simp only []
      split
      · next n' part' more =>
        obtain ⟨fits', longer⟩ := fits_numberStep fits more
        refine .inr ⟨outer, _, opened, .number fits', ?_⟩
        rw [longer, List.append_assoc]
      · next done =>
        have read_on := explains_afterStep (.number n part) read opened (v := .number n)
          (wellSpelled_of_fits fits (complete_of_done done)) [] b
        simpa [Doc.text, Gap.text] using read_on
      · exact explains_breakOff _ _ (by simp [Doc.break?]) _
    | string pieces spelled part =>
      simp only []
      split
      · next pieces' part' more =>
        obtain ⟨spelled', longer⟩ := pieces_stringStep spelled more
        refine .inr ⟨outer, _, opened, .string pieces' spelled' part', ?_⟩
        rw [longer]
        simp
      · next s done =>
        obtain ⟨rfl, text⟩ := pieces_of_done done
        refine .inr ⟨outer, _, opened, .after (v := .string pieces.reverse)
          (fun piece member => spelled piece (List.mem_reverse.1 member)) [], ?_⟩
        simp [Doc.text, text, Gap.text]
      · exact explains_breakOff _ _ (by simp [Doc.break?]) _
    | after spelled blanks => exact explains_afterStep _ read opened spelled blanks b
    | key done members before => exact explains_keyStep opened members before b
    | keyString done members before pieces spelled part =>
      simp only []
      split
      · next pieces' part' more =>
        obtain ⟨spelled', longer⟩ := pieces_stringStep spelled more
        refine .inr ⟨outer, _, opened, .keyString done members before pieces' spelled' part', ?_⟩
        rw [longer]
        simp
      · next s closed =>
        obtain ⟨rfl, text⟩ := pieces_of_done closed
        refine .inr ⟨outer, _, opened, .colon done members before pieces.reverse
          (fun piece member => spelled piece (List.mem_reverse.1 member)) [], ?_⟩
        simp [text, Gap.text]
      · exact explains_breakOff _ _ (by simp [Doc.break?]) _
    | colon done members before key name beforeColon =>
      exact explains_colonStep opened members before name beforeColon b

/-- A text that is one complete document, and its bytes. -/
def Whole (t : Text) (bytes : List UInt8) : Prop :=
  t.root.WellSpelled ∧ bytes = t.before.text ++ t.root.text ++ t.after.text

/-- What encloses a broken value is stuck. -/
theorem stuck_enclose (b : Break) (fs : List Frame) {d : Doc} (broken : d.break? ≠ none) :
    Stuck (enclose b d fs) :=
  .inr (break_enclose b fs broken)

/-- A text that ends behind a complete value. -/
theorem ends_endAfter (m : Mode) {fs : List Frame} (read : Nat) {outer : List UInt8} {v : Doc}
    (opened : Open fs outer) (spelled : v.WellSpelled) (blanks : Gap) :
    Stuck (endAfter ⟨m, fs, read⟩ v blanks) ∨
      Whole (endAfter ⟨m, fs, read⟩ v blanks) (outer ++ (v.text ++ blanks.text)) := by
  cases opened with
  | text before => exact .inr ⟨spelled, (List.append_assoc _ _ _).symm⟩
  | list => exact .inl (stuck_enclose _ _ (by simp [Doc.break?]))
  | object => exact .inl (stuck_enclose _ _ (by simp [Doc.break?]))

/-- A text that ends is stuck, or is a whole one. -/
theorem Explains.finish {s : State} {bytes : List UInt8} (h : Explains s bytes) :
    Stuck (finish s) ∨ Whole (finish s) bytes := by
  obtain ⟨m, fs, read⟩ := s
  rcases h with ⟨t, stopped, stuck⟩ | ⟨outer, inner, opened, reading, rfl⟩
  · obtain rfl : m = .stopped t := stopped
    exact .inl stuck
  · simp only [] at opened reading
    unfold Scan.finish
    cases reading with
    | value =>
      simp only []
      split
      · exact .inl (stuck_enclose _ _ (by simp [Doc.break?]))
      · exact .inl (stuck_enclose _ _ (by simp [Doc.break?]))
    | @word w _ left same =>
      simp only []
      split
      · next none_left =>
        obtain rfl : left = [] := by simpa using none_left
        rw [List.append_nil] at same
        have ends := ends_endAfter (.word w []) read opened (v := .literal w) trivial []
        simpa [Doc.text, same, Gap.text] using ends
      · exact .inl (stuck_enclose _ _ (by simp [Doc.break?]))
    | @number n part fits =>
      simp only []
      split
      · next complete =>
        have ends := ends_endAfter (.number n part) read opened (v := .number n)
          (wellSpelled_of_fits fits complete) []
        simpa [Doc.text, Gap.text] using ends
      · exact .inl (stuck_enclose _ _ (by simp [Doc.break?]))
    | after spelled blanks => exact ends_endAfter _ read opened spelled blanks
    | _ => exact .inl (stuck_enclose _ _ (by simp [Doc.break?]))

/-- What has been explained stays so for any further text. -/
theorem explains_foldl (text : List UInt8) {s : State} {bytes : List UInt8} (h : Explains s bytes) :
    Explains (text.foldl Scan.step s) (bytes ++ text) := by
  induction text generalizing s bytes with
  | nil => rwa [List.append_nil]
  | cons b text ih =>
    rw [List.append_cons]
    exact ih (h.step b)

end Scan

/-- A text without a break or a surplus is that of the document that was read, with the blanks around
it, and that document is well spelled. -/
theorem text_of_scan {text : List UInt8} (no_surplus : (scan text).surplus = none)
    (complete : (scan text).root.break? = none) :
    (scan text).root.WellSpelled ∧
      text = (scan text).before.text ++ (scan text).root.text ++ (scan text).after.text := by
  have start : Scan.Explains Scan.State.start [] := .inr ⟨[], [], .text [], .value, rfl⟩
  rcases (Scan.explains_foldl text start).finish with stuck | whole
  · rcases stuck with surplus | broken
    · exact absurd no_surplus surplus
    · exact absurd complete broken
  · exact whole

/-- What is read from the text of a well-spelled document, with blanks around it, is what is read from
the document. -/
theorem readText_blanks_ok_iff {α : Type} {read : Place → Doc → Except Fault α} {d : Doc} {x : α}
    (spelled : d.WellSpelled) (before after : Gap) :
    readText read (before.text ++ d.text ++ after.text) = .ok x ↔
      read (Place.start before.length) d = .ok x := by
  rw [readText, scan_text spelled before after, Text.read]
  cases read (Place.start before.length) d with
  | error f =>
    constructor
    · intro read
      cases read
    · intro read
      cases read
  | ok y =>
    exact ⟨fun same => congrArg Except.ok (Except.ok.inj same),
      fun same => congrArg Except.ok (Except.ok.inj same)⟩

/-- Blanks around a document do not matter to what is read from it. -/
theorem Reader.parse_blanks_ok_iff {α : Type} {r : Reader α} {d : Doc} {x : α} (spelled : d.WellSpelled)
    (before after : Gap) : r.parse (before.text ++ d.text ++ after.text) = .ok x ↔
      r.ofDoc (Place.start before.length) d = .ok x :=
  readText_blanks_ok_iff spelled before after

/-- A text is read exactly if it is that of a well-spelled document that is read, with blanks around it,
if the reader takes nothing from a document that breaks off. -/
theorem Reader.parse_ok_iff {α : Type} {r : Reader α}
    (whole : ∀ (offset : Nat) (d : Doc) (x : α), r.ofDoc (Place.start offset) d = .ok x → d.break? = none)
    {text : List UInt8} {x : α} : r.parse text = .ok x ↔ ∃ (before : Gap) (d : Doc) (after : Gap),
      d.WellSpelled ∧ text = before.text ++ d.text ++ after.text ∧
        r.ofDoc (Place.start before.length) d = .ok x := by
  constructor
  · intro parsed
    rw [Reader.parse, readText, Text.read] at parsed
    cases taken : r.ofDoc (Place.start (scan text).before.length) (scan text).root with
    | error f =>
      rw [taken] at parsed
      cases parsed
    | ok y =>
      rw [taken] at parsed
      simp only [bind, Except.bind] at parsed
      split at parsed
      · cases parsed
      · next no_surplus =>
        obtain rfl := Except.ok.inj parsed
        obtain ⟨spelled, same⟩ := text_of_scan no_surplus (whole _ _ _ taken)
        exact ⟨_, _, _, spelled, same, taken⟩
  · rintro ⟨before, d, after, spelled, rfl, taken⟩
    exact (parse_blanks_ok_iff spelled before after).2 taken

end CallPool.Json
