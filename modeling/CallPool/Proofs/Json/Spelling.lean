import CallPool.Json.Reader

/-!
# Complete documents read back

A document is well spelled if JSON admits what it holds: which bytes of a string stand for
themselves, which digits a number begins with, what may not be left empty. Such a document has one
text, and `scan` gives it back with the blanks around it.

The machine takes one byte at a time. `Leads` says where some bytes take it, whatever has been read
before; what stands in the open frames below is never looked at while a value is read, so what holds of
the text of a value holds of it wherever it stands. A number is complete only when the next byte is
seen: `Holds` says of the mode behind a value that it is that value, and the byte behind it is taken as
one behind a complete value (`step_of_holds`).

Main statement: `scan_text`.
-/

set_option autoImplicit false

namespace CallPool.Json

/-- Whether a piece may stand in a string. -/
def Piece.WellSpelled : Piece → Prop
  | .raw b => ¬ b < 0x20 ∧ b ≠ 0x22 ∧ b ≠ 0x5C
  | .short _ => True
  | .unit a b c d => [a, b, c, d].all (fun h => (hexValue? h).isSome) = true

/-- Whether all pieces of a string may stand there. -/
def Quoted.WellSpelled (s : Quoted) : Prop := ∀ piece ∈ s, piece.WellSpelled

/-- A number with digits wherever JSON wants some, and without a zero in front of other digits. -/
structure Numeral.WellSpelled (n : Numeral) : Prop where
  whole : n.whole ≠ []
  leading : n.whole.head? = some Digit.zero → n.whole = [Digit.zero]
  fraction : n.fraction ≠ some []
  exponent : ∀ e, n.exponent = some e → e.digits ≠ []

mutual

/-- Whether a document is complete and spelled as JSON admits. Only an empty list and an empty object
have blanks of their own. -/
def Doc.WellSpelled : Doc → Prop
  | .literal _ => True
  | .number n => n.WellSpelled
  | .string s => Quoted.WellSpelled s
  | .list items close =>
    ItemsWellSpelled items ∧ ∃ blanks, close = .closed blanks ∧ (items ≠ [] → blanks = [])
  | .object members close =>
    MembersWellSpelled members ∧ ∃ blanks, close = .closed blanks ∧ (members ≠ [] → blanks = [])
  | .missing _ => False
  | .brokenWord _ => False
  | .brokenString _ _ _ => False

/-- Whether the elements of a list are well spelled. -/
def ItemsWellSpelled : List (Item Doc) → Prop
  | [] => True
  | ⟨_, value, _⟩ :: rest => value.WellSpelled ∧ ItemsWellSpelled rest

/-- Whether the members of an object are well spelled. -/
def MembersWellSpelled : List (Member Doc) → Prop
  | [] => True
  | ⟨_, key, _, _, value, _⟩ :: rest =>
    Quoted.WellSpelled key ∧ value.WellSpelled ∧ MembersWellSpelled rest

end

/-- The byte of a blank is read as that blank. -/
theorem Blank.ofByte?_byte (g : Blank) : Blank.ofByte? g.byte = some g := by
  cases g <;> decide

/-- The byte of a digit is read as that digit. -/
theorem Digit.ofByte?_byte (d : Digit) : Digit.ofByte? d.byte = some d := by
  revert d; decide

/-- A digit is neither a blank nor a bracket. -/
theorem Digit.byte_opens_no_bracket (d : Digit) :
    Blank.ofByte? d.byte = none ∧ d.byte ≠ 0x5B ∧ d.byte ≠ 0x7B := by
  revert d; decide

/-- The letter of a short escape is read as that escape. -/
theorem ShortEscape.ofLetter?_letter (e : ShortEscape) : ShortEscape.ofLetter? e.letter = some e := by
  cases e <;> decide

namespace Scan

/-- Some bytes take the machine from one mode and its frames to another, wherever in a text they
stand. -/
def Leads (m : Mode) (fs : List Frame) (bytes : List UInt8) (m' : Mode) (fs' : List Frame) : Prop :=
  ∀ read, ∃ read', bytes.foldl step ⟨m, fs, read⟩ = ⟨m', fs', read'⟩

namespace Leads

variable {m m' m'' : Mode} {fs fs' fs'' : List Frame} {bytes more : List UInt8} {b : UInt8}

/-- No bytes lead nowhere else. -/
theorem nil : Leads m fs [] m fs := fun read => ⟨read, rfl⟩

/-- Bytes behind others lead on from where those lead. -/
theorem append (first : Leads m fs bytes m' fs') (second : Leads m' fs' more m'' fs'') :
    Leads m fs (bytes ++ more) m'' fs'' := by
  intro read
  obtain ⟨middle, to_middle⟩ := first read
  obtain ⟨read', to_end⟩ := second middle
  exact ⟨read', by rw [List.foldl_append, to_middle, to_end]⟩

/-- One byte in front leads to where the others lead on. -/
theorem cons (first : ∀ read, step ⟨m, fs, read⟩ b = ⟨m', fs', read + 1⟩)
    (second : Leads m' fs' more m'' fs'') : Leads m fs (b :: more) m'' fs'' := by
  intro read
  obtain ⟨read', to_end⟩ := second (read + 1)
  exact ⟨read', by rw [List.foldl_cons, first, to_end]⟩

/-- One byte leads where its step goes. -/
theorem single (first : ∀ read, step ⟨m, fs, read⟩ b = ⟨m', fs', read + 1⟩) :
    Leads m fs [b] m' fs' :=
  cons first nil

end Leads

/-! ### Blanks -/

/-- The frame with blanks in front of the value that is wanted in it. -/
def Frame.addGap (f : Frame) (g : Gap) : Frame := g.foldl (fun f blank => f.addBlank blank) f

/-- Blanks in front of the whole value are kept. -/
@[simp] theorem Frame.addGap_text (before g : Gap) :
    (Frame.text before).addGap g = .text (before ++ g) := by
  induction g generalizing before with
  | nil => simp [Frame.addGap]
  | cons blank g ih => simpa [Frame.addGap, Frame.addBlank] using ih (before ++ [blank])

/-- Blanks in front of an element are kept. -/
@[simp] theorem Frame.addGap_list (done : List (Item Doc)) (before g : Gap) :
    (Frame.list done before).addGap g = .list done (before ++ g) := by
  induction g generalizing before with
  | nil => simp [Frame.addGap]
  | cons blank g ih => simpa [Frame.addGap, Frame.addBlank] using ih (before ++ [blank])

/-- Blanks between a colon and its value are kept. -/
@[simp] theorem Frame.addGap_object (done : List (Member Doc)) (before : Gap) (key : Quoted)
    (beforeColon afterColon g : Gap) :
    (Frame.object done before key beforeColon afterColon).addGap g =
      .object done before key beforeColon (afterColon ++ g) := by
  induction g generalizing afterColon with
  | nil => simp [Frame.addGap]
  | cons blank g ih => simpa [Frame.addGap, Frame.addBlank] using ih (afterColon ++ [blank])

/-- Blanks in front of a value are added to its frame. -/
theorem leads_gap_value (f : Frame) (fs : List Frame) (g : Gap) :
    Leads .value (f :: fs) g.text .value (f.addGap g :: fs) := by
  induction g generalizing f with
  | nil => exact Leads.nil
  | cons blank g ih =>
    exact Leads.cons (fun read => by simp [step, valueStep, Blank.ofByte?_byte]) (ih (f.addBlank blank))

/-- Blanks in front of a key are kept. -/
theorem leads_gap_key (fs : List Frame) (done : List (Member Doc)) (before g : Gap) :
    Leads (.key done before) fs g.text (.key done (before ++ g)) fs := by
  induction g generalizing before with
  | nil =>
    rw [List.append_nil]
    exact Leads.nil
  | cons blank g ih =>
    rw [List.append_cons]
    exact Leads.cons (fun read => by simp [step, keyStep, Blank.ofByte?_byte]) (ih (before ++ [blank]))

/-- Blanks in front of a colon are kept. -/
theorem leads_gap_colon (fs : List Frame) (done : List (Member Doc)) (before : Gap) (key : Quoted)
    (beforeColon g : Gap) :
    Leads (.colon done before key beforeColon) fs g.text (.colon done before key (beforeColon ++ g))
      fs := by
  induction g generalizing beforeColon with
  | nil =>
    rw [List.append_nil]
    exact Leads.nil
  | cons blank g ih =>
    rw [List.append_cons]
    exact Leads.cons (fun read => by simp [step, colonStep, Blank.ofByte?_byte])
      (ih (beforeColon ++ [blank]))

/-! ### Strings -/

/-- The modes of one kind in which a string is read: as a value, or as a key. -/
def TakesString (wrap : Quoted → EscapePart → Mode) : Prop :=
  ∀ (fs : List Frame) (read : Nat) (pieces : Quoted) (part : EscapePart) (b : UInt8)
    (pieces' : Quoted) (part' : EscapePart), stringStep read pieces part b = .more pieces' part' →
      step ⟨wrap pieces part, fs, read⟩ b = ⟨wrap pieces' part', fs, read + 1⟩

/-- A string may be read as a value. -/
theorem takesString_string : TakesString Mode.string := by
  intro fs read pieces part b pieces' part' more
  simp only [step, more]

/-- A string may be read as a key. -/
theorem takesString_keyString (done : List (Member Doc)) (before : Gap) :
    TakesString (Mode.keyString done before) := by
  intro fs read pieces part b pieces' part' more
  simp only [step, more]

/-- The text of a piece adds it to the string. -/
theorem leads_piece {wrap : Quoted → EscapePart → Mode} (takes : TakesString wrap) (fs : List Frame)
    (pieces : Quoted) {piece : Piece} (spelled : piece.WellSpelled) :
    Leads (wrap pieces .outside) fs piece.text (wrap (piece :: pieces) .outside) fs := by
  cases piece with
  | raw b =>
    obtain ⟨printable, not_quote, not_backslash⟩ := spelled
    exact Leads.single fun read => takes _ _ _ _ _ _ _
      (by simp [stringStep, printable, not_quote, not_backslash])
  | short e =>
    have not_unit : e.letter ≠ 0x75 := by cases e <;> decide
    exact Leads.cons (fun read => takes _ _ _ _ _ pieces .backslash rfl)
      (Leads.single fun read => takes _ _ _ _ _ _ _
        (by simp [stringStep, ShortEscape.ofLetter?_letter, not_unit]))
  | unit a b c d =>
    exact Leads.cons (fun read => takes _ _ _ _ _ pieces .backslash rfl)
      (Leads.cons (fun read => takes _ _ _ _ _ pieces (.hex []) rfl)
      (Leads.cons (fun read => takes _ _ _ _ _ pieces (.hex [a]) rfl)
      (Leads.cons (fun read => takes _ _ _ _ _ pieces (.hex [a, b]) rfl)
      (Leads.cons (fun read => takes _ _ _ _ _ pieces (.hex [a, b, c]) rfl)
      (Leads.single fun read => takes _ _ _ _ _ _ _ (if_pos spelled))))))

/-- The text of several pieces adds them to the string, in order. -/
theorem leads_pieces {wrap : Quoted → EscapePart → Mode} (takes : TakesString wrap) (fs : List Frame)
    {s : Quoted} (spelled : s.WellSpelled) (pieces : Quoted) :
    Leads (wrap pieces .outside) fs (s.flatMap Piece.text) (wrap (s.reverse ++ pieces) .outside)
      fs := by
  induction s generalizing pieces with
  | nil => exact Leads.nil
  | cons piece s ih =>
    rw [List.flatMap_cons, List.reverse_cons, List.append_assoc]
    exact (leads_piece takes fs pieces (spelled piece List.mem_cons_self)).append
      (ih (fun other member => spelled other (List.mem_cons_of_mem piece member)) (piece :: pieces))

/-- The text of a string leads behind it. -/
theorem leads_string (fs : List Frame) {s : Quoted} (spelled : s.WellSpelled) :
    Leads .value fs (Quoted.text s) (.after (.string s) []) fs := by
  have opened := leads_pieces takesString_string fs spelled []
  rw [List.append_nil] at opened
  refine Leads.cons (fun read => rfl) (opened.append (Leads.single fun read => ?_))
  simp [step, stringStep]

/-- The text of a key leads to its colon. -/
theorem leads_key (fs : List Frame) (done : List (Member Doc)) (before : Gap) {s : Quoted}
    (spelled : s.WellSpelled) :
    Leads (.key done before) fs (Quoted.text s) (.colon done before s []) fs := by
  have opened := leads_pieces (takesString_keyString done before) fs spelled []
  rw [List.append_nil] at opened
  refine Leads.cons (fun read => rfl) (opened.append (Leads.single fun read => ?_))
  simp [step, stringStep]

/-- The bytes in front of the value of a member. -/
theorem leads_member_head (fs : List Frame) (done : List (Member Doc))
    (before beforeColon afterColon : Gap) {key : Quoted} (spelled : key.WellSpelled) :
    Leads (.key done []) fs
      (before.text ++ Quoted.text key ++ beforeColon.text ++ 0x3A :: afterColon.text) .value
      (.object done before key beforeColon afterColon :: fs) := by
  have gap := leads_gap_key fs done [] before
  have name := leads_key fs done before spelled
  have gap' := leads_gap_colon fs done before key [] beforeColon
  have colon : ∀ read, step ⟨.colon done before key beforeColon, fs, read⟩ 0x3A =
      ⟨.value, .object done before key beforeColon [] :: fs, read + 1⟩ := fun _ => rfl
  have gap'' := leads_gap_value (.object done before key beforeColon []) fs afterColon
  rw [Frame.addGap_object, List.nil_append] at gap''
  exact ((gap.append name).append gap').append (Leads.cons colon gap'')

/-! ### Numbers -/

/-- A byte that goes on with a numeral is added to it. -/
theorem leads_number {n n' : Numeral} {part part' : NumberPart} {b : UInt8} (fs : List Frame)
    (more : numberStep n part b = .more n' part') :
    Leads (.number n part) fs [b] (.number n' part') fs :=
  Leads.single fun read => by simp only [step, more]

/-- Digits go on with the whole part, unless that is a zero. -/
theorem leads_whole (fs : List Frame) (negative : Bool) (whole ds : List Digit)
    (nonempty : whole ≠ []) (leading : whole = [Digit.zero] → ds = []) :
    Leads (.number ⟨negative, whole, none, none⟩ .whole) fs (digitsText ds)
      (.number ⟨negative, whole ++ ds, none, none⟩ .whole) fs := by
  induction ds generalizing whole with
  | nil =>
    rw [List.append_nil]
    exact Leads.nil
  | cons d ds ih =>
    have not_zero : whole ≠ [Digit.zero] := fun zero => List.cons_ne_nil _ _ (leading zero)
    have first : Leads (.number ⟨negative, whole, none, none⟩ .whole) fs [d.byte]
        (.number ⟨negative, whole ++ [d], none, none⟩ .whole) fs :=
      leads_number fs (by simp [numberStep, Digit.ofByte?_byte, wholeDigit, not_zero])
    rw [List.append_cons]
    refine first.append (ih (whole ++ [d]) (by simp) fun zero => ?_)
    cases whole with
    | nil => exact absurd rfl nonempty
    | cons _ _ => simp at zero

/-- Digits go on with the fraction. -/
theorem leads_fraction (fs : List Frame) (negative : Bool) (whole taken ds : List Digit) :
    Leads (.number ⟨negative, whole, some taken, none⟩ .fraction) fs (digitsText ds)
      (.number ⟨negative, whole, some (taken ++ ds), none⟩ .fraction) fs := by
  induction ds generalizing taken with
  | nil =>
    rw [List.append_nil]
    exact Leads.nil
  | cons d ds ih =>
    have first : Leads (.number ⟨negative, whole, some taken, none⟩ .fraction) fs [d.byte]
        (.number ⟨negative, whole, some (taken ++ [d]), none⟩ .fraction) fs :=
      leads_number fs (by simp [numberStep, Digit.ofByte?_byte, fractionDigit])
    rw [List.append_cons]
    exact first.append (ih (taken ++ [d]))

/-- Digits go on with the exponent. -/
theorem leads_exponent (fs : List Frame) (n : Numeral) (capital : Bool) (sign : ExponentSign)
    (taken ds : List Digit) :
    Leads (.number { n with exponent := some ⟨capital, sign, taken⟩ } .exponent) fs (digitsText ds)
      (.number { n with exponent := some ⟨capital, sign, taken ++ ds⟩ } .exponent) fs := by
  induction ds generalizing taken with
  | nil =>
    rw [List.append_nil]
    exact Leads.nil
  | cons d ds ih =>
    have first : Leads (.number { n with exponent := some ⟨capital, sign, taken⟩ } .exponent) fs
        [d.byte] (.number { n with exponent := some ⟨capital, sign, taken ++ [d]⟩ } .exponent) fs :=
      leads_number fs (by simp [numberStep, Digit.ofByte?_byte, exponentDigit])
    rw [List.append_cons]
    exact first.append (ih (taken ++ [d]))

/-- The sign and the digits of the whole part. -/
theorem leads_front (fs : List Frame) (negative : Bool) {whole : List Digit} (nonempty : whole ≠ [])
    (leading : whole.head? = some Digit.zero → whole = [Digit.zero]) :
    Leads .value fs ((if negative then [0x2D] else []) ++ digitsText whole)
      (.number ⟨negative, whole, none, none⟩ .whole) fs := by
  obtain ⟨d, ds, rfl⟩ := List.exists_cons_of_ne_nil nonempty
  have rest := leads_whole fs negative [d] ds (by simp) fun zero => by
    obtain rfl := List.singleton_inj.1 zero
    exact List.cons_inj_right _ |>.1 (leading rfl)
  cases negative with
  | false =>
    have opened : ∀ read, step ⟨.value, fs, read⟩ d.byte =
        ⟨.number ⟨false, [d], none, none⟩ .whole, fs, read + 1⟩ := by
      intro read
      have opens : opening d.byte = some (.number ⟨false, [d], none, none⟩ .whole) := by
        match d with
        | 0 | 1 | 2 | 3 | 4 | 5 | 6 | 7 | 8 | 9 => rfl
      simp [step, valueStep, opens, d.byte_opens_no_bracket]
    exact Leads.cons opened rest
  | true =>
    have signed : ∀ read, step ⟨.value, fs, read⟩ 0x2D =
        ⟨.number (Numeral.blank true) .sign, fs, read + 1⟩ := fun _ => rfl
    refine Leads.cons signed ((leads_number fs ?_).append rest)
    simp [numberStep, Digit.ofByte?_byte, Numeral.blank]

/-- The point and the digits behind it, if there are any. -/
theorem leads_point (fs : List Frame) (negative : Bool) (whole : List Digit)
    {fraction : Option (List Digit)} (nonempty : fraction ≠ some []) :
    ∃ part, (part = .whole ∨ part = .fraction) ∧
      Leads (.number ⟨negative, whole, none, none⟩ .whole) fs
        (match fraction with
          | some ds => 0x2E :: digitsText ds
          | none => [])
        (.number ⟨negative, whole, fraction, none⟩ part) fs := by
  match fraction with
  | none => exact ⟨.whole, .inl rfl, Leads.nil⟩
  | some [] => exact absurd rfl nonempty
  | some (d :: ds) =>
    have point : Leads (.number ⟨negative, whole, none, none⟩ .whole) fs [0x2E]
        (.number ⟨negative, whole, some [], none⟩ .point) fs := leads_number fs rfl
    have first : Leads (.number ⟨negative, whole, some [], none⟩ .point) fs [d.byte]
        (.number ⟨negative, whole, some [d], none⟩ .fraction) fs :=
      leads_number fs (by simp [numberStep, Digit.ofByte?_byte, fractionDigit])
    exact ⟨.fraction, .inr rfl, point.append (first.append (leads_fraction fs negative whole [d] ds))⟩

/-- The exponent, if there is one, behind the whole part or the fraction. -/
theorem leads_mark (fs : List Frame) (negative : Bool) (whole : List Digit)
    (fraction : Option (List Digit)) {exponent : Option Exponent} {part : NumberPart}
    (behind : part = .whole ∨ part = .fraction)
    (nonempty : ∀ e, exponent = some e → e.digits ≠ []) :
    ∃ part', part'.complete = true ∧
      Leads (.number ⟨negative, whole, fraction, none⟩ part) fs
        (match exponent with
          | some e => e.text
          | none => [])
        (.number ⟨negative, whole, fraction, exponent⟩ part') fs := by
  match exponent with
  | none => exact ⟨part, by rcases behind with rfl | rfl <;> rfl, Leads.nil⟩
  | some ⟨capital, sign, []⟩ => exact absurd rfl (nonempty _ rfl)
  | some ⟨capital, sign, d :: ds⟩ =>
    let at_exponent (sign : ExponentSign) (taken : List Digit) : Numeral :=
      ⟨negative, whole, fraction, some ⟨capital, sign, taken⟩⟩
    have mark : Leads (.number ⟨negative, whole, fraction, none⟩ part) fs
        [if capital then 0x45 else 0x65] (.number (at_exponent .unsigned []) .mark) fs := by
      refine leads_number fs ?_
      cases capital <;> rcases behind with rfl | rfl <;> rfl
    have rest : Leads (.number (at_exponent sign [d]) .exponent) fs (digitsText ds)
        (.number (at_exponent sign (d :: ds)) .exponent) fs :=
      leads_exponent fs ⟨negative, whole, fraction, none⟩ capital sign [d] ds
    have first (before : NumberPart) (starts : before = .mark ∨ before = .exponentSign) :
        Leads (.number (at_exponent sign []) before) fs [d.byte]
          (.number (at_exponent sign [d]) .exponent) fs := by
      refine leads_number fs ?_
      rcases starts with rfl | rfl <;>
        simp [numberStep, Digit.ofByte?_byte, exponentDigit, at_exponent]
    refine ⟨.exponent, rfl, ?_⟩
    cases sign with
    | unsigned => exact mark.append ((first .mark (.inl rfl)).append rest)
    | plus =>
      have signed : Leads (.number (at_exponent .unsigned []) .mark) fs [0x2B]
          (.number (at_exponent .plus []) .exponentSign) fs := leads_number fs rfl
      exact mark.append (signed.append ((first .exponentSign (.inr rfl)).append rest))
    | minus =>
      have signed : Leads (.number (at_exponent .unsigned []) .mark) fs [0x2D]
          (.number (at_exponent .minus []) .exponentSign) fs := leads_number fs rfl
      exact mark.append (signed.append ((first .exponentSign (.inr rfl)).append rest))

/-- The text of a numeral leads to where it may end. -/
theorem leads_numeral (fs : List Frame) {n : Numeral} (spelled : n.WellSpelled) :
    ∃ part, part.complete = true ∧ Leads .value fs n.text (.number n part) fs := by
  obtain ⟨negative, whole, fraction, exponent⟩ := n
  have front := leads_front fs negative spelled.whole spelled.leading
  obtain ⟨part, behind, point⟩ := leads_point fs negative whole spelled.fraction
  obtain ⟨part', complete, mark⟩ :=
    leads_mark fs negative whole fraction behind spelled.exponent
  exact ⟨part', complete, (front.append point).append mark⟩

/-! ### Words -/

/-- The text of a literal leads behind it. -/
theorem leads_literal (fs : List Frame) (w : Literal) :
    Leads .value fs w.text (.after (.literal w) []) fs := by
  intro read
  exact ⟨read + w.text.length, by cases w <;> rfl⟩

/-! ### Values -/

/-- The mode behind a value and blanks: it is complete, or it is a number that may end here. -/
inductive Holds (v : Doc) (blanks : Gap) : Mode → Prop
  | after : Holds v blanks (.after v blanks)
  | number {n : Numeral} {part : NumberPart} (same : v = .number n) (none_yet : blanks = [])
      (complete : part.complete = true) : Holds v blanks (.number n part)

/-- The bytes that may stand behind a value. -/
def Delimits (b : UInt8) : Prop := (Blank.ofByte? b).isSome ∨ b = 0x2C ∨ b = 0x5D ∨ b = 0x7D

/-- A delimiter ends a numeral that may end there. -/
theorem numberStep_of_delimits {n : Numeral} {part : NumberPart} {b : UInt8}
    (complete : part.complete = true) (delimits : Delimits b) : numberStep n part b = .done := by
  have cases_of : b = 0x20 ∨ b = 0x09 ∨ b = 0x0A ∨ b = 0x0D ∨ b = 0x2C ∨ b = 0x5D ∨ b = 0x7D := by
    unfold Delimits Blank.ofByte? at delimits
    grind
  rcases cases_of with rfl | rfl | rfl | rfl | rfl | rfl | rfl <;>
    cases part <;> first | rfl | cases complete

/-- The byte behind a value is taken as one behind a complete value. -/
theorem step_of_holds {v : Doc} {blanks : Gap} {m : Mode} (holds : Holds v blanks m) {b : UInt8}
    (delimits : Delimits b) (fs : List Frame) (read : Nat) :
    step ⟨m, fs, read⟩ b = afterStep ⟨m, fs, read⟩ v blanks b := by
  cases holds with
  | after => rfl
  | number same none_yet complete =>
    subst same none_yet
    simp only [step, numberStep_of_delimits complete delimits]

/-- A text ends where its value holds, with nothing left over. -/
theorem finish_of_holds {v : Doc} {blanks : Gap} {m : Mode} (holds : Holds v blanks m)
    (before : Gap) (fs : List Frame) (read : Nat) :
    finish ⟨m, .text before :: fs, read⟩ = ⟨before, v, blanks, none⟩ := by
  cases holds with
  | after => rfl
  | number same none_yet complete =>
    subst same none_yet
    simp only [finish, complete, if_true, endAfter]

/-- Blanks behind a value are kept with it. -/
theorem leads_gap_after {v : Doc} {m : Mode} (fs : List Frame) {blanks : Gap} (g : Gap)
    (holds : Holds v blanks m) :
    ∃ m', Holds v (blanks ++ g) m' ∧ Leads m fs g.text m' fs := by
  induction g generalizing m blanks with
  | nil => exact ⟨m, by rwa [List.append_nil], Leads.nil⟩
  | cons blank g ih =>
    obtain ⟨m', holds', rest⟩ := ih (m := .after v (blanks ++ [blank])) .after
    rw [← List.append_cons] at holds'
    refine ⟨m', holds', Leads.cons (fun read => ?_) rest⟩
    have delimits : Delimits blank.byte := .inl (by rw [Blank.ofByte?_byte]; rfl)
    rw [step_of_holds holds delimits]
    simp [afterStep, Blank.ofByte?_byte]

/-- A comma behind an element adds it to its list, and another one follows. -/
theorem leads_comma_item {v : Doc} {m : Mode} (fs : List Frame) {after : Gap}
    (done : List (Item Doc)) (before : Gap) (holds : Holds v after m) :
    Leads m (.list done before :: fs) [0x2C] .value (.list (⟨before, v, after⟩ :: done) [] :: fs) :=
  Leads.single fun read => by
    rw [step_of_holds holds (.inr (.inl rfl))]
    rfl

/-- A bracket behind an element adds it to its list, and closes that. -/
theorem leads_close_list {v : Doc} {m : Mode} (fs : List Frame) {after : Gap}
    (done : List (Item Doc)) (before : Gap) (holds : Holds v after m) :
    Leads m (.list done before :: fs) [0x5D]
      (.after (.list (done.reverse ++ [⟨before, v, after⟩]) (.closed [])) []) fs :=
  Leads.single fun read => by
    rw [step_of_holds holds (.inr (.inr (.inl rfl))), ← List.reverse_cons]
    rfl

/-- A comma behind a member adds it to its object, and another key follows. -/
theorem leads_comma_member {v : Doc} {m : Mode} (fs : List Frame) {after : Gap}
    (done : List (Member Doc)) (before : Gap) (key : Quoted) (beforeColon afterColon : Gap)
    (holds : Holds v after m) :
    Leads m (.object done before key beforeColon afterColon :: fs) [0x2C]
      (.key (⟨before, key, beforeColon, afterColon, v, after⟩ :: done) []) fs :=
  Leads.single fun read => by
    rw [step_of_holds holds (.inr (.inl rfl))]
    rfl

/-- A bracket behind a member adds it to its object, and closes that. -/
theorem leads_close_object {v : Doc} {m : Mode} (fs : List Frame) {after : Gap}
    (done : List (Member Doc)) (before : Gap) (key : Quoted) (beforeColon afterColon : Gap)
    (holds : Holds v after m) :
    Leads m (.object done before key beforeColon afterColon :: fs) [0x7D]
      (.after (.object (done.reverse ++ [⟨before, key, beforeColon, afterColon, v, after⟩])
        (.closed [])) []) fs :=
  Leads.single fun read => by
    rw [step_of_holds holds (.inr (.inr (.inr rfl))), ← List.reverse_cons]
    rfl

mutual

/-- The bytes of a value take the machine from where a value is wanted to behind it. -/
theorem leads_value (fs : List Frame) : ∀ {d : Doc}, d.WellSpelled →
    ∃ m, Holds d [] m ∧ Leads .value fs d.text m fs
  | .literal w, _ => ⟨_, .after, leads_literal fs w⟩
  | .number n, spelled => by
    obtain ⟨part, complete, leads⟩ := leads_numeral fs spelled
    exact ⟨_, .number rfl rfl complete, leads⟩
  | .string s, spelled => ⟨_, .after, leads_string fs spelled⟩
  | .list [] close, ⟨_, blanks, same, _⟩ => by
    subst same
    have opened : Leads .value fs [0x5B] .value (.list [] [] :: fs) := Leads.single fun _ => rfl
    have gap := leads_gap_value (.list [] []) fs blanks
    rw [Frame.addGap_list, List.nil_append] at gap
    have closed : Leads .value (.list [] blanks :: fs) [0x5D]
        (.after (.list [] (.closed blanks)) []) fs := Leads.single fun _ => rfl
    exact ⟨_, .after, opened.append (gap.append closed)⟩
  | .list (⟨before, value, after⟩ :: rest) close, ⟨spelled, blanks, same, no_blanks⟩ => by
    obtain rfl := no_blanks (by simp)
    subst same
    have opened : Leads .value fs [0x5B] .value (.list [] [] :: fs) := Leads.single fun _ => rfl
    have gap := leads_gap_value (.list [] []) fs before
    rw [Frame.addGap_list, List.nil_append] at gap
    obtain ⟨m, holds, first⟩ := leads_value (.list [] before :: fs) spelled.1
    obtain ⟨m', holds', behind⟩ := leads_gap_after (.list [] before :: fs) after holds
    have more := leads_more_items fs [] before holds' spelled.2
    have all := opened.append (gap.append (first.append (behind.append more)))
    refine ⟨_, .after, ?_⟩
    simpa [Doc.text, itemsText, Gap.text] using all
  | .object [] close, ⟨_, blanks, same, _⟩ => by
    subst same
    have opened : Leads .value fs [0x7B] (.key [] []) fs := Leads.single fun _ => rfl
    have gap := leads_gap_key fs [] [] blanks
    have closed : Leads (.key [] blanks) fs [0x7D] (.after (.object [] (.closed blanks)) []) fs :=
      Leads.single fun _ => rfl
    exact ⟨_, .after, opened.append (gap.append closed)⟩
  | .object (⟨before, key, beforeColon, afterColon, value, after⟩ :: rest) close,
      ⟨spelled, blanks, same, no_blanks⟩ => by
    obtain rfl := no_blanks (by simp)
    subst same
    have opened : Leads .value fs [0x7B] (.key [] []) fs := Leads.single fun _ => rfl
    have head := leads_member_head fs [] before beforeColon afterColon spelled.1
    obtain ⟨m, holds, first⟩ :=
      leads_value (.object [] before key beforeColon afterColon :: fs) spelled.2.1
    obtain ⟨m', holds', behind⟩ :=
      leads_gap_after (.object [] before key beforeColon afterColon :: fs) after holds
    have more := leads_more_members fs [] before key beforeColon afterColon holds' spelled.2.2
    have all := opened.append (head.append (first.append (behind.append more)))
    refine ⟨_, .after, ?_⟩
    simpa [Doc.text, membersText, Gap.text] using all
  | .missing _, spelled => spelled.elim
  | .brokenWord _, spelled => spelled.elim
  | .brokenString _ _ _, spelled => spelled.elim

/-- The bytes behind an element of a list, up to the bracket. -/
theorem leads_more_items (fs : List Frame) (done : List (Item Doc)) (before : Gap) {v : Doc}
    {after : Gap} {m : Mode} (holds : Holds v after m) : ∀ {rest : List (Item Doc)},
    ItemsWellSpelled rest →
      Leads m (.list done before :: fs) (moreItemsText rest ++ [0x5D])
        (.after (.list (done.reverse ++ ⟨before, v, after⟩ :: rest) (.closed [])) []) fs
  | [], _ => leads_close_list fs done before holds
  | ⟨before', value, after'⟩ :: rest, spelled => by
    have comma := leads_comma_item fs done before holds
    have gap := leads_gap_value (.list (⟨before, v, after⟩ :: done) []) fs before'
    rw [Frame.addGap_list, List.nil_append] at gap
    obtain ⟨m', holds', next⟩ :=
      leads_value (.list (⟨before, v, after⟩ :: done) before' :: fs) spelled.1
    obtain ⟨m'', holds'', behind⟩ := leads_gap_after _ after' holds'
    have more := leads_more_items fs (⟨before, v, after⟩ :: done) before' holds'' spelled.2
    have all := comma.append (gap.append (next.append (behind.append more)))
    simpa [moreItemsText] using all

/-- The bytes behind a member of an object, up to the bracket. -/
theorem leads_more_members (fs : List Frame) (done : List (Member Doc)) (before : Gap)
    (key : Quoted) (beforeColon afterColon : Gap) {v : Doc} {after : Gap} {m : Mode}
    (holds : Holds v after m) : ∀ {rest : List (Member Doc)}, MembersWellSpelled rest →
      Leads m (.object done before key beforeColon afterColon :: fs) (moreMembersText rest ++ [0x7D])
        (.after (.object
          (done.reverse ++ ⟨before, key, beforeColon, afterColon, v, after⟩ :: rest) (.closed []))
          []) fs
  | [], _ => leads_close_object fs done before key beforeColon afterColon holds
  | ⟨before', key', beforeColon', afterColon', value, after'⟩ :: rest, spelled => by
    have comma := leads_comma_member fs done before key beforeColon afterColon holds
    have head := leads_member_head fs (⟨before, key, beforeColon, afterColon, v, after⟩ :: done)
      before' beforeColon' afterColon' spelled.1
    obtain ⟨m', holds', next⟩ := leads_value
      (.object (⟨before, key, beforeColon, afterColon, v, after⟩ :: done) before' key' beforeColon'
        afterColon' :: fs) spelled.2.1
    obtain ⟨m'', holds'', behind⟩ := leads_gap_after _ after' holds'
    have more := leads_more_members fs (⟨before, key, beforeColon, afterColon, v, after⟩ :: done)
      before' key' beforeColon' afterColon' holds'' spelled.2.2
    have all := comma.append (head.append (next.append (behind.append more)))
    simpa [moreMembersText] using all

end

end Scan

/-- A well-spelled document is read back from its text, with the blanks around it. -/
theorem scan_text {d : Doc} (spelled : d.WellSpelled) (before after : Gap) :
    scan (before.text ++ d.text ++ after.text) = ⟨before, d, after, none⟩ := by
  have gap := Scan.leads_gap_value (.text []) [] before
  rw [Scan.Frame.addGap_text, List.nil_append] at gap
  obtain ⟨m, holds, leads⟩ := Scan.leads_value [.text before] spelled
  obtain ⟨m', holds', behind⟩ := Scan.leads_gap_after [.text before] after holds
  rw [List.nil_append] at holds'
  obtain ⟨read, to_end⟩ := ((gap.append leads).append behind) 0
  rw [scan, Scan.State.start, to_end]
  exact Scan.finish_of_holds holds' before [] read

/-- What is read from the text of a well-spelled document is what is read from the document. -/
theorem readText_text {α : Type} (read : Place → Doc → Except Fault α) {d : Doc}
    (spelled : d.WellSpelled) :
    readText read d.text = (read (Place.start 0) d).mapError (Fault.error d.text) := by
  have scanned := scan_text spelled [] []
  simp only [Gap.text, List.map_nil, List.nil_append, List.append_nil] at scanned
  rw [readText, scanned, Text.read]
  cases read (Place.start 0) d <;> rfl

/-- A well-spelled text is read as its document is. -/
theorem Reader.parse_text {α : Type} (r : Reader α) {d : Doc} (spelled : d.WellSpelled) :
    r.parse d.text = (r.ofDoc (Place.start 0) d).mapError (Fault.error d.text) :=
  readText_text r.ofDoc spelled

/-- What is read from the text of a well-spelled document was taken from that document. -/
theorem Reader.ofDoc_of_parse_text {α : Type} {r : Reader α} {d : Doc} {x : α} (spelled : d.WellSpelled)
    (parsed : r.parse d.text = .ok x) : r.ofDoc (Place.start 0) d = .ok x := by
  rw [r.parse_text spelled] at parsed
  cases taken : r.ofDoc (Place.start 0) d with
  | error f =>
    rw [taken] at parsed
    cases parsed
  | ok y =>
    rw [taken] at parsed
    exact congrArg Except.ok (Except.ok.inj parsed)

/-- What was read from a text was taken from the document that it spells. -/
theorem Reader.ofDoc_of_parse {α : Type} {r : Reader α} {text : List UInt8} {x : α}
    (parsed : r.parse text = .ok x) : ∃ offset d, r.ofDoc (Place.start offset) d = .ok x := by
  rw [Reader.parse, readText, Text.read] at parsed
  refine ⟨(scan text).before.length, (scan text).root, ?_⟩
  cases taken : r.ofDoc (Place.start (scan text).before.length) (scan text).root with
  | error f =>
    rw [taken] at parsed
    cases parsed
  | ok y =>
    rw [taken] at parsed
    simp only [bind, Except.bind] at parsed
    split at parsed
    · cases parsed
    · exact congrArg Except.ok (Except.ok.inj parsed)

end CallPool.Json
