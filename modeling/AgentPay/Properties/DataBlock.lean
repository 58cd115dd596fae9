import AgentPay.Analyzer.Llm
import AgentPay.Library.Occurrence
import AgentPay.Properties.Scenario

/-!
# The data block

The nonce stands in the message twice, in the two markers, whatever the fields hold: it has no
character of those that stand between the parts. So content cannot close the block. What the message
shows of a field is its first part, under a header that is plain text; fields in which no header
stands are told apart by what is shown of them.
-/

set_option autoImplicit false

namespace AgentPay.Properties

open AgentPay.Library AgentPay.Gateway AgentPay.Analyzer

/-! ## The parts of the message -/

/-- The lines, each with its end. -/
def lineText (lines : List Text) : Text := lines.flatMap fun line => line ++ ['\n']

/-- What stands above the data, whatever the fields are. -/
def above : Text := lineText instructionLines

/-- What stands below the data, whatever the fields are. -/
def below : Text := '\n' :: closingLine

/-- What stands between the markers. -/
def region (fields : List (String × Text)) : Text := '\n' :: lineText (fields.flatMap fieldLines)

theorem joinLines_append (lines : List Text) {rest : List Text} (h : rest ≠ []) :
    joinLines (lines ++ rest) = lineText lines ++ joinLines rest := by
  induction lines with
  | nil => rfl
  | cons line lines ih =>
      have hne : lines ++ rest ≠ [] := List.append_ne_nil_of_right_ne_nil _ h
      obtain ⟨next, more, hmore⟩ := List.exists_cons_of_ne_nil hne
      rw [List.cons_append, hmore, joinLines, ← hmore, ih, lineText, lineText, List.flatMap_cons,
        List.append_assoc, List.append_assoc, List.singleton_append]
      exact fun h => absurd h (List.cons_ne_nil _ _)

/-- The message in its parts. -/
theorem buildDataBlock_eq (fields : List (String × Text)) (nonce : Text) :
    buildDataBlock fields nonce =
      above ++ openingMarker nonce ++ region fields ++ closingMarker nonce ++ below := by
  rw [buildDataBlock, List.append_assoc, List.append_assoc, joinLines_append _ (by simp),
    List.singleton_append, above, region, below]
  have hrest : joinLines (openingMarker nonce :: (fields.flatMap fieldLines ++
      [closingMarker nonce, closingLine])) = openingMarker nonce ++ '\n' ::
        (lineText (fields.flatMap fieldLines) ++ closingMarker nonce ++ '\n' :: closingLine) := by
    have hlines := joinLines_append ([openingMarker nonce] ++ fields.flatMap fieldLines)
      (List.cons_ne_nil (closingMarker nonce) [closingLine])
    rw [List.append_assoc] at hlines
    refine hlines.trans ?_
    simp only [lineText, joinLines, List.flatMap_cons, List.nil_append, List.append_assoc,
      List.cons_append]
  rw [hrest]
  simp only [List.append_assoc, List.cons_append]

/-- A header is its name between two short texts. -/
theorem fieldHeader_parts : ∃ opening closing : Text, opening.length < 32 ∧ closing.length < 32 ∧
    ∀ name : String, fieldHeader name = opening ++ ' ' :: (name.toList ++ ' ' :: closing) := by
  have hopen : "--- field: ".toList = "--- field:".toList ++ [' '] := by simp
  have hclose : " (untrusted) ---".toList = ' ' :: "(untrusted) ---".toList := by simp
  refine ⟨"--- field:".toList, "(untrusted) ---".toList, by decide +kernel, by decide +kernel,
    fun name => ?_⟩
  refine (congrArg₂ (fun a b : Text => a ++ name.toList ++ b) hopen hclose).trans ?_
  simp only [List.append_assoc, List.cons_append, List.nil_append]

/-- The end of a line precedes the closing marker. -/
theorem region_ends (fields : List (String × Text)) : ∃ data, region fields = data ++ ['\n'] := by
  have hlines : ∀ lines : List Text, ∃ data, '\n' :: lineText lines = data ++ ['\n'] := by
    intro lines
    induction lines with
    | nil => exact ⟨[], rfl⟩
    | cons line lines ih =>
        obtain ⟨data, hdata⟩ := ih
        refine ⟨'\n' :: line ++ data, ?_⟩
        rw [List.append_assoc, ← hdata, lineText, List.flatMap_cons, lineText]
        simp only [List.append_assoc, List.cons_append, List.nil_append]
  exact hlines _

/-! ## The nonce -/

def isHexDigit (c : Char) : Bool :=
  ('0' ≤ c && c ≤ '9') || ('a' ≤ c && c ≤ 'f') || ('A' ≤ c && c ≤ 'F')

/-- 32 hexadecimal digits. -/
structure IsNonce (nonce : Text) : Prop where
  length : nonce.length = 32
  digits : ∀ c ∈ nonce, isHexDigit c = true

/-- Somewhere 32 hexadecimal digits follow each other. -/
def hasRun (text : Text) : Bool :=
  (List.range (text.length - 31)).any fun i => ((text.drop i).take 32).all isHexDigit

namespace IsNonce

variable {nonce : Text}

theorem notMem (h : IsNonce nonce) {c : Char} (hc : isHexDigit c = false) : c ∉ nonce := by
  intro hin
  rw [h.digits c hin] at hc
  cases hc

theorem not_infix (h : IsNonce nonce) {text : Text} (hrun : hasRun text = false) :
    ¬ nonce <:+: text := by
  rintro ⟨before, after, rfl⟩
  refine absurd (List.any_eq_true.2 ⟨before.length, ?_, ?_⟩) (ne_of_eq_of_ne hrun Bool.false_ne_true)
  · rw [List.mem_range, List.length_append, List.length_append, h.length]
    omega
  · rw [List.append_assoc, List.drop_left, List.take_append_of_le_length h.length.ge,
      List.take_of_length_le h.length.le]
    exact List.all_eq_true.2 h.digits

theorem not_infix_of_short (h : IsNonce nonce) {text : Text} (hshort : text.length < 32) :
    ¬ nonce <:+: text :=
  not_infix_of_length_lt (by rwa [h.length])

/-- A nonce that stands in no name and no content does not stand in the lines of the fields. -/
theorem not_infix_lines (h : IsNonce nonce) {fields : List (String × Text)} {last : Text}
    (hfields : ∀ field ∈ fields, ¬ nonce <:+: field.1.toList ∧ ¬ nonce <:+: field.2)
    (hlast : ¬ nonce <:+: last) : ¬ nonce <:+: lineText (fields.flatMap fieldLines) ++ last := by
  induction fields with
  | nil => exact hlast
  | cons field fields ih =>
      obtain ⟨⟨hname, hcontent⟩, hrest⟩ := List.forall_mem_cons.1 hfields
      have hnewline := h.notMem (c := '\n') (by decide)
      have hspace := h.notMem (c := ' ') (by decide)
      have hshown : ¬ nonce <:+: shownText field.2 := by
        rw [shownText]
        have hempty : "(empty)".toList.length < 32 := by decide +kernel
        intro hin
        have hwhole := hin.trans (List.take_prefix 8000 _).isInfix
        split at hwhole
        · exact h.not_infix_of_short hempty hwhole
        · exact hcontent hwhole
      obtain ⟨opening, closing, hopening, hclosing, hheader⟩ := fieldHeader_parts
      have hparts : lineText ((field :: fields).flatMap fieldLines) ++ last =
          opening ++ ' ' :: (field.1.toList ++ ' ' :: (closing ++ '\n' :: (shownText field.2 ++
            '\n' :: (lineText (fields.flatMap fieldLines) ++ last)))) := by
        rw [List.flatMap_cons, fieldLines, hheader]
        simp only [lineText, List.flatMap_cons, List.cons_append, List.nil_append,
          List.append_assoc]
      rw [hparts]
      -- the nonce would have to stand in one of the parts between blanks and line ends
      intro hin
      rcases infix_across hspace hin with hin | hin
      · exact h.not_infix_of_short hopening hin
      · rcases infix_across hspace hin with hin | hin
        · exact hname hin
        · rcases infix_across hnewline hin with hin | hin
          · exact h.not_infix_of_short hclosing hin
          · rcases infix_across hnewline hin with hin | hin
            · exact hshown hin
            · exact ih hrest hin

end IsNonce

/-- The opening marker is the nonce behind a fixed text. -/
theorem openingMarker_parts : ∃ opening : Text, opening.length = 17 ∧ opening[2]? = some '<' ∧
    hasRun (above ++ opening) = false ∧
    ∀ nonce : Text, openingMarker nonce = opening ++ '_' :: nonce := by
  have hopen : "<<<UNTRUSTED_DATA_".toList = "<<<UNTRUSTED_DATA".toList ++ ['_'] := by simp
  refine ⟨"<<<UNTRUSTED_DATA".toList, by decide +kernel, by decide +kernel, by decide +kernel,
    fun nonce => ?_⟩
  refine (congrArg (fun a : Text => a ++ nonce) hopen).trans ?_
  simp only [List.append_assoc, List.cons_append, List.nil_append]

/-- The closing marker is the nonce between fixed texts. -/
theorem closingMarker_parts : ∃ closing ending : Text, closing.length = 14 ∧
    hasRun (ending ++ below) = false ∧
    ∀ nonce : Text, closingMarker nonce = closing ++ '_' :: (nonce ++ '>' :: ending) := by
  have hclose : "UNTRUSTED_DATA_".toList = "UNTRUSTED_DATA".toList ++ ['_'] := by simp
  have hend : ">>>".toList = '>' :: ">>".toList := by simp
  refine ⟨"UNTRUSTED_DATA".toList, ">>".toList, by decide +kernel, by decide +kernel,
    fun nonce => ?_⟩
  refine (congrArg₂ (fun a b : Text => a ++ nonce ++ b) hclose hend).trans ?_
  simp only [List.append_assoc, List.cons_append, List.nil_append]

section Closing

variable {fields : List (String × Text)} {nonce : Text} {i : ℕ}

/-- The nonce stands in the markers only. -/
theorem nonce_positions (h : IsNonce nonce)
    (hfields : ∀ field ∈ fields, ¬ nonce <:+: field.1.toList ∧ ¬ nonce <:+: field.2)
    (hi : OccursAt nonce (buildDataBlock fields nonce) i) :
    i = above.length + 18 ∨ i = (above ++ openingMarker nonce ++ region fields).length + 15 := by
  obtain ⟨opening, hopening, -, hrun, hopen⟩ := openingMarker_parts
  obtain ⟨closing, ending, hclosing, hending, hclose⟩ := closingMarker_parts
  have hunderscore := h.notMem (c := '_') (by decide)
  have hnewline := h.notMem (c := '\n') (by decide)
  have hangle := h.notMem (c := '>') (by decide)
  have hbody : ¬ nonce <:+: lineText (fields.flatMap fieldLines) ++ closing :=
    h.not_infix_lines hfields (h.not_infix_of_short (by omega))
  have hblock : buildDataBlock fields nonce = (above ++ opening) ++ '_' :: (nonce ++ '\n' ::
      ((lineText (fields.flatMap fieldLines) ++ closing) ++ '_' ::
        (nonce ++ '>' :: (ending ++ below)))) := by
    rw [buildDataBlock_eq, hopen, hclose, region]
    simp only [List.append_assoc, List.cons_append]
  have hlength : (above ++ openingMarker nonce ++ region fields).length =
      above.length + 51 + (lineText (fields.flatMap fieldLines)).length := by
    rw [hopen, region]
    simp only [List.length_append, List.length_cons, hopening, h.length]
    omega
  rw [hblock] at hi
  rw [hlength]
  -- outside the markers the nonce has no place between two of the fixed characters
  rcases hi.across hunderscore with hi | ⟨j, rfl, hj⟩
  · exact absurd hi.isInfix (h.not_infix hrun)
  · rcases hj.across hnewline with hj | ⟨k, rfl, hk⟩
    · obtain rfl := occursAt_self hj
      left
      rw [List.length_append, hopening]
    · rcases hk.across hunderscore with hk | ⟨l, rfl, hl⟩
      · exact absurd hk.isInfix hbody
      · rcases hl.across hangle with hl | ⟨m, rfl, hm⟩
        · obtain rfl := occursAt_self hl
          right
          simp only [List.length_append, hopening, hclosing, h.length]
          omega
        · exact absurd hm.isInfix (h.not_infix hending)

theorem openingMarker_position (h : IsNonce nonce)
    (hfields : ∀ field ∈ fields, ¬ nonce <:+: field.1.toList ∧ ¬ nonce <:+: field.2) :
    OccursAt (openingMarker nonce) (buildDataBlock fields nonce) i ↔ i = above.length := by
  obtain ⟨opening, hopening, hthird, -, hopen⟩ := openingMarker_parts
  constructor
  · intro hi
    have hpart : OccursAt nonce (buildDataBlock fields nonce) (i + 18) := by
      have hsplit : openingMarker nonce = (opening ++ ['_']) ++ nonce ++ [] := by
        rw [hopen, List.append_nil, List.append_assoc, List.singleton_append]
      rw [hsplit] at hi
      have hnonce := hi.part
      rwa [List.length_append, hopening] at hnonce
    rcases nonce_positions h hfields hpart with hpos | hpos
    · omega
    · -- before the nonce of the closing marker stands the end of a line
      obtain ⟨data, hdata⟩ := region_ends fields
      have hnewline : (buildDataBlock fields nonce)[(above ++ openingMarker nonce ++ data).length]? =
          some '\n' := by
        have hblock : buildDataBlock fields nonce = (above ++ openingMarker nonce ++ data) ++
            '\n' :: (closingMarker nonce ++ below) := by
          rw [buildDataBlock_eq, hdata]
          simp only [List.append_assoc, List.cons_append, List.nil_append]
        rw [hblock, List.getElem?_append_right le_rfl, Nat.sub_self]
        rfl
      obtain ⟨before, after, hblock, hbefore⟩ := hi
      have hangle : (buildDataBlock fields nonce)[i + 2]? = some '<' := by
        rw [hblock, ← hbefore, List.append_assoc, List.getElem?_append_right (Nat.le_add_right _ _),
          Nat.add_sub_cancel_left, hopen, List.append_assoc,
          List.getElem?_append_left (by omega), hthird]
      have hindex : i + 2 = (above ++ openingMarker nonce ++ data).length := by
        rw [hdata] at hpos
        simp only [List.length_append, List.length_cons, List.length_nil] at hpos ⊢
        omega
      have hne : ('\n' : Char) ≠ '<' := by decide
      rw [hindex, hnewline] at hangle
      exact absurd (Option.some.inj hangle) hne
  · intro hi
    rw [hi, buildDataBlock_eq, List.append_assoc, List.append_assoc]
    exact occursAt_middle _ _ _

theorem closingMarker_position (h : IsNonce nonce)
    (hfields : ∀ field ∈ fields, ¬ nonce <:+: field.1.toList ∧ ¬ nonce <:+: field.2) :
    OccursAt (closingMarker nonce) (buildDataBlock fields nonce) i ↔
      i = (above ++ openingMarker nonce ++ region fields).length := by
  obtain ⟨opening, hopening, -, -, hopen⟩ := openingMarker_parts
  obtain ⟨closing, ending, hclosing, -, hclose⟩ := closingMarker_parts
  constructor
  · intro hi
    have hpart : OccursAt nonce (buildDataBlock fields nonce) (i + 15) := by
      have hsplit : closingMarker nonce = (closing ++ ['_']) ++ nonce ++ ('>' :: ending) := by
        rw [hclose, List.append_assoc, List.append_assoc, List.singleton_append]
      rw [hsplit] at hi
      have hnonce := hi.part
      rwa [List.length_append, hclosing] at hnonce
    rcases nonce_positions h hfields hpart with hpos | hpos
    · -- after the nonce of the opening marker stands the end of a line
      have hnewline : (buildDataBlock fields nonce)[(above ++ openingMarker nonce).length]? =
          some '\n' := by
        rw [buildDataBlock_eq, List.append_assoc, List.append_assoc,
          List.getElem?_append_right le_rfl, Nat.sub_self]
        rfl
      have hangle : (buildDataBlock fields nonce)[i + 47]? = some '>' := by
        have hsplit : closingMarker nonce = (closing ++ '_' :: nonce) ++ '>' :: ending := by
          rw [hclose, List.append_assoc, List.cons_append]
        rw [hsplit] at hi
        have hletter := hi.getElem?
        rwa [List.length_append, List.length_cons, hclosing, h.length] at hletter
      have hindex : i + 47 = (above ++ openingMarker nonce).length := by
        rw [hopen]
        simp only [List.length_append, List.length_cons, hopening, h.length]
        omega
      have hne : ('\n' : Char) ≠ '>' := by decide
      rw [hindex, hnewline] at hangle
      exact absurd (Option.some.inj hangle) hne
    · omega
  · intro hi
    rw [hi, buildDataBlock_eq]
    exact occursAt_middle _ _ _

end Closing

/-- **Content cannot close the data block.** Each marker stands at one place, and the fields make up
nothing outside the region between them: what is above and below is the same for all fields. -/
theorem content_cannot_close (fields : List (String × Text)) (nonce : Text) (h : IsNonce nonce)
    (hfields : ∀ field ∈ fields, ¬ nonce <:+: field.1.toList ∧ ¬ nonce <:+: field.2) :
    buildDataBlock fields nonce =
        above ++ openingMarker nonce ++ region fields ++ closingMarker nonce ++ below ∧
      (∀ i, OccursAt (openingMarker nonce) (buildDataBlock fields nonce) i ↔
        i = above.length) ∧
      (∀ i, OccursAt (closingMarker nonce) (buildDataBlock fields nonce) i ↔
        i = (above ++ openingMarker nonce ++ region fields).length) :=
  ⟨buildDataBlock_eq fields nonce, fun _ => openingMarker_position h hfields,
    fun _ => closingMarker_position h hfields⟩

/-- A field of one letter under a nonce of one digit. -/
theorem content_cannot_close_letter :
    OccursAt (openingMarker (List.replicate 32 '0'))
      (buildDataBlock [("purpose", ['a'])] (List.replicate 32 '0')) above.length := by
  have hnonce : IsNonce (List.replicate 32 '0') := by
    refine ⟨List.length_replicate, fun c hc => ?_⟩
    rw [List.eq_of_mem_replicate hc]
    decide
  have hname : "purpose".toList.length < 32 := by decide +kernel
  refine ((content_cannot_close _ _ hnonce fun field hfield => ?_).2.1 _).2 rfl
  rw [List.mem_singleton.1 hfield]
  exact ⟨hnonce.not_infix_of_short hname, hnonce.not_infix_of_short (by decide)⟩

/-! ## What the message shows -/

/-- What the message shows of the fields. -/
def shown (content : UntrustedContent) : List Text :=
  (untrustedFields content).map fun field => shownText field.2

/-- No header of a field stands in what is shown of a field. -/
def Headless (content : UntrustedContent) : Prop :=
  ∀ text ∈ shown content, ∀ field ∈ untrustedFields content, ¬ fieldHeader field.1 <:+: text

/-- The data between the markers, field by field. -/
theorem region_eq (content : UntrustedContent) : region (untrustedFields content) =
    '\n' :: (fieldHeader "merchant_content" ++ '\n' :: (shownText content.merchantText.toList ++
      '\n' :: (fieldHeader "purpose" ++ '\n' :: (shownText content.purpose.toList ++
        '\n' :: (fieldHeader "tool_arguments" ++
          '\n' :: (shownText content.toolArgumentsText.toList ++ ['\n'])))))) := by
  simp only [region, untrustedFields, lineText, fieldLines, List.flatMap_cons, List.flatMap_nil,
    List.append_assoc, List.cons_append, List.nil_append, List.append_nil]

theorem shown_eq (content : UntrustedContent) : shown content =
    [shownText content.merchantText.toList, shownText content.purpose.toList,
      shownText content.toolArgumentsText.toList] := rfl

/-- The message depends on what is shown only. -/
theorem block_of_shown {content content' : UntrustedContent} (h : shown content = shown content')
    (nonce : Text) : buildDataBlock (untrustedFields content) nonce =
      buildDataBlock (untrustedFields content') nonce := by
  rw [shown_eq, shown_eq] at h
  obtain ⟨hmerchant, h⟩ := List.cons.inj h
  obtain ⟨hpurposes, h⟩ := List.cons.inj h
  rw [buildDataBlock_eq, buildDataBlock_eq, region_eq, region_eq, hmerchant, hpurposes,
    (List.cons.inj h).1]

/-- Three texts behind headers that do not stand in them can be told apart. -/
theorem texts_of_parts {header₂ header₃ a b c a' b' c' : Text} (h₂ : '\n' ∉ header₂)
    (h₃ : '\n' ∉ header₃) (ha : ¬ header₂ <:+: a) (ha' : ¬ header₂ <:+: a') (hb : ¬ header₃ <:+: b)
    (hb' : ¬ header₃ <:+: b')
    (h : a ++ '\n' :: (header₂ ++ '\n' :: (b ++ '\n' :: (header₃ ++ '\n' :: (c ++ ['\n'])))) =
      a' ++ '\n' :: (header₂ ++ '\n' :: (b' ++ '\n' :: (header₃ ++ '\n' :: (c' ++ ['\n']))))) :
    a = a' ∧ b = b' ∧ c = c' := by
  -- each header ends the text above it
  obtain ⟨hfirst, hrest⟩ := split_before h₂ ha ha' h
  obtain ⟨hsecond, hrest⟩ := split_before h₃ hb hb' (List.cons.inj hrest).2
  exact ⟨hfirst, hsecond, List.append_cancel_right (List.cons.inj hrest).2⟩

/-- The untrusted content of an intent. -/
def contentOf (intent : PaymentIntent) : UntrustedContent :=
  (buildCanonical Scenario.runtime intent ⟨"a", "u", "d", []⟩ 1 0).untrusted

/-- Two orders, without a purpose and with one that says so. -/
def silentOrder : PaymentIntent := Scenario.firstOrder

def literalOrder : PaymentIntent :=
  { Scenario.firstOrder with purpose := "(empty)", purpose_length := by decide }

/-- A text of 8001 letters. -/
def longText : Text := List.replicate 8001 'Z'

theorem longText_length : (String.ofList longText).length ≤ 20000 := by
  rw [String.length_ofList, longText, List.length_replicate]
  norm_num

/-- An order beside a long text. -/
def longOrder : PaymentIntent :=
  { Scenario.firstOrder with
    merchantContent := ⟨.unknown, "", String.ofList longText, Nat.zero_le _, longText_length⟩ }

/-- What is shown of the long text has one letter less. -/
theorem count_region_long :
    (region (untrustedFields (contentOf longOrder))).count 'Z' = 8000 := by
  have htext : (contentOf longOrder).merchantText.toList = longText := String.toList_ofList
  have hshown : shownText longText = List.replicate 8000 'Z' := by
    rw [shownText, if_neg (by rw [longText, List.isEmpty_replicate]; decide), longText,
      List.take_replicate]
    rfl
  have hrest : ∀ text : Text, text = fieldHeader "merchant_content" ∨
      text = fieldHeader "purpose" ∨ text = fieldHeader "tool_arguments" ∨
      text = shownText [] → text.count 'Z' = 0 := by
    rintro text (rfl | rfl | rfl | rfl) <;> decide +kernel
  have hpurpose : (contentOf longOrder).purpose.toList = [] := rfl
  have htools : (contentOf longOrder).toolArgumentsText.toList = [] := rfl
  have hnewline : ('\n' == 'Z') = false := by decide
  rw [region_eq, htext, hshown, hpurpose, htools]
  simp only [List.count_append, List.count_cons, List.count_nil, List.count_replicate_self,
    hnewline, hrest _ (.inl rfl), hrest _ (.inr (.inl rfl)), hrest _ (.inr (.inr (.inl rfl))),
    hrest _ (.inr (.inr (.inr rfl)))]
  rfl

end AgentPay.Properties
