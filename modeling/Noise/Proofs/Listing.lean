import Noise.Listing
import Noise.Proofs.Handshake.Compilation
import Noise.Proofs.ProtocolName

/-!
# A listing determines its protocol

A listing is a sequence of lines: the name of the protocol, then programs under their
titles, and a line about the transport ciphers.  Whatever the indent, the last character
of a line says what the line is: a title ends with a colon, an instruction with a
parenthesis, and the last line with the letter of a cipher.  The text of an instruction
leaves out one thing, the expected length of a decrypted text; in the programs of a
message, that length follows from the target and the suite.
-/

namespace Noise

/-! ## Lines -/

namespace Text

/-- A text without a line feed. -/
def IsLine (text : String) : Prop := '\n' ∉ text.toList

instance (text : String) : Decidable (IsLine text) :=
  inferInstanceAs (Decidable ('\n' ∉ text.toList))

theorem isLine_append {text other : String} : IsLine (text ++ other) ↔
    IsLine text ∧ IsLine other := by
  simp [IsLine]

@[simp] theorem toString_text (text : String) : toString text = text := rfl

theorem toList_join_cons (line : String) (rest : List String) :
    (String.join ((line :: rest).map (· ++ "\n"))).toList =
      line.toList ++ '\n' :: (String.join (rest.map (· ++ "\n"))).toList := by
  simp

/-- Lines that were joined are told apart at the line feeds. -/
theorem eq_of_joined {lines others : List String}
    (areLines : ∀ line ∈ lines, IsLine line)
    (othersAreLines : ∀ line ∈ others, IsLine line)
    (same : String.join (lines.map (· ++ "\n")) =
      String.join (others.map (· ++ "\n"))) : lines = others := by
  induction lines generalizing others with
  | nil =>
      cases others with
      | nil => rfl
      | cons other rest =>
          rw [← String.toList_inj, toList_join_cons] at same
          simp at same
  | cons line rest ih =>
      cases others with
      | nil =>
          rw [← String.toList_inj, toList_join_cons] at same
          simp at same
      | cons other others =>
          obtain ⟨isLine, areLines⟩ := List.forall_mem_cons.1 areLines
          obtain ⟨otherIsLine, othersAreLines⟩ := List.forall_mem_cons.1 othersAreLines
          rw [← String.toList_inj, toList_join_cons, toList_join_cons] at same
          obtain ⟨sameLine, sameRest⟩ := cut_at_first isLine otherIsLine same
          rw [String.toList_inj.1 sameLine,
            ih areLines othersAreLines (String.toList_inj.1 sameRest)]

/-- A natural number is written with digits. -/
theorem not_mem_repr (value : Nat) (char : Char) (noDigit : char.isDigit = false) :
    char ∉ value.repr.toList := by
  intro present
  rw [Nat.repr_eq_ofList_toDigits, String.toList_ofList] at present
  rw [Nat.isDigit_of_mem_toDigits (by decide) (by decide) present] at noDigit
  cases noDigit

/-- A number is written with digits and a minus. -/
theorem not_mem_number (number : Int) (char : Char) (noDigit : char.isDigit = false)
    (noMinus : char ≠ '-') : char ∉ (toString number).toList := by
  change char ∉ number.repr.toList
  rw [Int.repr_eq_if]
  split
  · exact not_mem_repr _ char noDigit
  · rw [String.toList_append, List.mem_append]
    rintro (minus | digit)
    · exact noMinus (List.mem_singleton.1 minus)
    · exact not_mem_repr _ char noDigit digit

/-- The digits of a natural number determine it. -/
theorem repr_injective {value other : Nat} (same : value.repr = other.repr) :
    value = other := by
  rw [Nat.repr_eq_ofList_toDigits, Nat.repr_eq_ofList_toDigits,
    String.ofList_inj] at same
  have read : ∀ number : Nat, Nat.ofDigitChars 10 (Nat.toDigits 10 number) 0 = number :=
    fun _ => Nat.ofDigitChars_toDigits (by decide) (by decide)
  rw [← read value, same, read]

/-- The text of a number determines it: there is a minus in front just when
it is negative. -/
theorem number_injective {number other : Int}
    (same : toString number = toString other) :
    number = other := by
  change number.repr = other.repr at same
  have signed : ∀ value digits : Nat, value.repr ≠ "-" ++ digits.repr := by
    intro value digits same
    apply not_mem_repr value '-' (by decide)
    rw [same, String.toList_append]
    exact List.mem_append_left _ (List.mem_singleton_self _)
  rw [Int.repr_eq_if, Int.repr_eq_if] at same
  by_cases natural : 0 ≤ number
  · rw [if_pos natural] at same
    by_cases otherNatural : 0 ≤ other
    · rw [if_pos otherNatural] at same
      have sameValue := repr_injective same
      omega
    · rw [if_neg otherNatural] at same
      exact absurd same (signed _ _)
  · rw [if_neg natural] at same
    by_cases otherNatural : 0 ≤ other
    · rw [if_pos otherNatural] at same
      exact absurd same.symm (signed _ _)
    · rw [if_neg otherNatural, String.append_right_inj] at same
      have sameValue := repr_injective same
      omega

end Text

/-! ## The text of an instruction -/

namespace Operand

variable {operand other : Operand}

theorem not_mem_name (operand : Operand) (char : Char)
    (notLower : char.isLower = false) :
    char ∉ operand.name.toList := by
  have lower : operand.name.toList.all Char.isLower = true := by
    rcases operand with (_ | _) | (_ | _) | _ | _ | _ <;> decide
  intro present
  rw [List.all_eq_true.1 lower char present] at notLower
  cases notLower

theorem name_injective (same : operand.name = other.name) : operand = other := by
  rcases operand with (_ | _) | (_ | _) | _ | _ | _
    <;> rcases other with (_ | _) | (_ | _) | _ | _ | _ <;>
    first
    | rfl
    | exact absurd same (by decide)

/-- The length that a decrypted text must have when it is stored for the operand. -/
def expectedLength (dh : DhFunction) : Operand → Option Int
  | .peer _ => some dh.keyLength
  | .own _ | .psk | .prologue | .payload => none

end Operand

namespace Source

variable {source other : Source}

theorem toList_text_dh (ownKey publicKey : Operand) :
    (dh ownKey publicKey).text.toList =
      "DH(".toList ++
        (ownKey.name.toList ++ ',' :: (' ' :: (publicKey.name.toList ++ [')']))) := by
  simp [text]

theorem text_ne (operand ownKey publicKey : Operand) :
    (value operand).text ≠ (dh ownKey publicKey).text := by
  intro same
  apply operand.not_mem_name '(' (by decide)
  change '(' ∈ (value operand).text.toList
  rw [same, toList_text_dh]
  simp

theorem text_injective (same : source.text = other.text) : source = other := by
  cases source with
  | value operand =>
      cases other with
      | value otherOperand => rw [Operand.name_injective same]
      | dh ownKey publicKey => exact absurd same (text_ne operand ownKey publicKey)
  | dh ownKey publicKey =>
      cases other with
      | value operand => exact absurd same.symm (text_ne operand ownKey publicKey)
      | dh otherOwn otherPublic =>
          rw [← String.toList_inj, toList_text_dh, toList_text_dh] at same
          obtain ⟨sameOwn, samePublic⟩ :=
            Text.cut_at_first (ownKey.not_mem_name ',' (by decide))
              (otherOwn.not_mem_name ',' (by decide)) (List.append_cancel_left same)
          have names := List.append_cancel_right (List.cons.inj samePublic).2
          rw [Operand.name_injective (String.toList_inj.1 sameOwn),
            Operand.name_injective (String.toList_inj.1 names)]

end Source

namespace Instruction

variable {instruction other : Instruction}

/-- A number of bytes as text, or the word for all that is left. -/
def lengthText : Option Int → String
  | none => "rest"
  | some length => toString length

theorem lengthText_injective {length other : Option Int}
    (same : lengthText length = lengthText other) :
    length = other := by
  have letter : ∀ number : Int, "rest" ≠ toString number := by
    intro number same
    apply Text.not_mem_number number 'r' (by decide) (by decide)
    rw [← same]
    decide
  cases length with
  | none =>
      cases other with
      | none => rfl
      | some other => exact absurd same (letter other)
  | some length =>
      cases other with
      | none => exact absurd same.symm (letter length)
      | some other => rw [Text.number_injective same]

/-- The word that the text of an instruction starts with. -/
def word : Instruction → String
  | .generateEphemeral => "GenerateEphemeral"
  | .emit _ => "Emit"
  | .parse .. => "Parse"
  | .mixHash _ => "MixHash"
  | .mixKey _ => "MixKey"
  | .mixKeyAndHash _ => "MixKeyAndHash"
  | .authEncrypt _ => "AuthEncrypt"
  | .authDecrypt .. => "AuthDecrypt"
  | .checkRemoteKey _ => "CheckRemoteKey"
  | .split => "Split"

/-- What stands between the parentheses. -/
def arguments : Instruction → String
  | .generateEphemeral | .split => ""
  | .emit operand | .mixHash operand | .mixKeyAndHash operand | .authEncrypt operand
  | .checkRemoteKey operand => operand.name
  | .mixKey source => source.text
  | .parse target length => target.name ++ ", " ++ toString length
  | .authDecrypt target length _ => target.name ++ ", " ++ lengthText length

theorem toList_text (instruction : Instruction) :
    instruction.text.toList = instruction.word.toList ++
      '(' :: (instruction.arguments.toList ++ [')']) := by
  unfold text
  cases instruction with
  | authDecrypt target length expected => cases length
      <;> simp [word, arguments, lengthText]
  | generateEphemeral | split => decide
  | emit | parse | mixHash | mixKey | mixKeyAndHash | authEncrypt | checkRemoteKey =>
      simp [word, arguments]

/-- The instruction with the expected length that its target has. -/
def completed (dh : DhFunction) : Instruction → Instruction
  | .authDecrypt target length _ =>
      .authDecrypt target length (target.expectedLength dh)
  | instruction => instruction

/-- The text of an instruction determines the instruction, but for the
expected length. -/
theorem completed_of_text (dh : DhFunction) (same : instruction.text = other.text) :
    instruction.completed dh = other.completed dh := by
  have solid : ∀ instruction : Instruction, '(' ∉ instruction.word.toList := by
    intro instruction
    cases instruction <;> simp [word]
  have listed : ∀ (target otherTarget : Operand) (length otherLength : String),
      target.name ++ ", " ++ length = otherTarget.name ++ ", " ++ otherLength →
        target = otherTarget ∧ length = otherLength := by
    intro target otherTarget length otherLength same
    have cut : target.name.toList ++ ',' :: (' ' :: length.toList) =
        otherTarget.name.toList ++ ',' :: (' ' :: otherLength.toList) := by
      simpa [← String.toList_inj] using same
    obtain ⟨sameTarget, sameLength⟩ :=
      Text.cut_at_first (target.not_mem_name ',' (by decide))
        (otherTarget.not_mem_name ',' (by decide)) cut
    exact ⟨Operand.name_injective (String.toList_inj.1 sameTarget),
      String.toList_inj.1 (List.cons.inj sameLength).2⟩
  rw [← String.toList_inj, toList_text, toList_text] at same
  obtain ⟨words, rest⟩ := Text.cut_at_first (solid _) (solid _) same
  have sameArguments := String.toList_inj.1 (List.append_cancel_right rest)
  rw [String.toList_inj] at words
  -- Only instructions with the same word are left.
  cases instruction <;> cases other <;> simp only [word, String.reduceEq] at words
  case generateEphemeral.generateEphemeral | split.split => rfl
  case mixKey.mixKey => rw [Source.text_injective sameArguments]
  case parse.parse =>
    obtain ⟨sameTarget, sameLength⟩ := listed _ _ _ _ sameArguments
    rw [sameTarget, Text.number_injective sameLength]
  case authDecrypt.authDecrypt =>
    obtain ⟨sameTarget, sameLength⟩ := listed _ _ _ _ sameArguments
    rw [completed, completed, sameTarget, lengthText_injective sameLength]
  all_goals rw [Operand.name_injective sameArguments]

theorem isLine_text (instruction : Instruction) : Text.IsLine instruction.text := by
  have name : ∀ operand : Operand, '\n' ∉ operand.name.toList :=
    fun operand => operand.not_mem_name '\n' (by decide)
  have number : ∀ number : Int, '\n' ∉ (toString number).toList :=
    fun number => Text.not_mem_number number '\n' (by decide) (by decide)
  have word : '\n' ∉ instruction.word.toList := by
    cases instruction <;> simp [Instruction.word]
  have arguments : '\n' ∉ instruction.arguments.toList := by
    cases instruction with
    | generateEphemeral | split => decide
    | emit operand | mixHash operand | mixKeyAndHash operand | authEncrypt operand
        | checkRemoteKey operand =>
        exact name operand
    | mixKey source =>
        cases source with
        | value operand => exact name operand
        | dh ownKey publicKey =>
            rw [Instruction.arguments, Source.toList_text_dh]
            simp [name]
    | parse target length =>
        simp only [Instruction.arguments, String.toList_append, List.mem_append, not_or]
        exact ⟨⟨name target, by decide⟩, number length⟩
    | authDecrypt target length expected =>
        simp only [Instruction.arguments, String.toList_append, List.mem_append, not_or]
        cases length with
        | none => exact ⟨⟨name target, by decide⟩, by decide⟩
        | some length => exact ⟨⟨name target, by decide⟩, number length⟩
  rw [Text.IsLine, toList_text]
  simp [word, arguments]

end Instruction

/-! ## Programs of a message -/

/-- A program that expects of every decrypted text the length that its target has. -/
def Program.IsStandard (dh : DhFunction) (program : Program) : Prop :=
  ∀ instruction ∈ program, instruction.completed dh = instruction

namespace Program

variable {dh : DhFunction} {program other : Program}

theorem IsStandard.append (standard : program.IsStandard dh)
    (otherStandard : other.IsStandard dh) :
    IsStandard dh (program ++ other) :=
  List.forall_mem_append.2 ⟨standard, otherStandard⟩

theorem isStandard_initialization (pattern : Pattern) (role : Role) :
    (pattern.initialization role).IsStandard dh := by
  intro instruction present
  rw [Pattern.initialization_eq_map] at present
  obtain ⟨operand, -, rfl⟩ := List.mem_map.1 present
  rfl

variable (suite : Suite) (attacker : AttackerModel) (hasPsk keyed : Bool) (role : Role)

theorem isStandard_write (token : Token) : (token.write hasPsk role).IsStandard dh := by
  rcases token with (_ | _) | _ | _ <;> cases hasPsk
    <;> simp [IsStandard, Token.write, Instruction.completed]

theorem isStandard_read (token : Token) :
    (token.read suite attacker hasPsk keyed role).IsStandard suite.dh := by
  rcases token with (_ | _) | _ | _ <;> cases hasPsk <;> cases attacker <;>
    simp [IsStandard, Token.read, Token.check, Instruction.completed,
      Operand.expectedLength]

theorem isStandard_readTokens (tokens : List Token) :
    (readTokenList suite attacker hasPsk role keyed tokens).IsStandard suite.dh := by
  induction tokens generalizing keyed with
  | nil => exact List.forall_mem_nil _
  | cons token rest ih =>
      exact (isStandard_read suite attacker hasPsk keyed role token).append (ih _)

theorem isStandard_ofMessage (place : Place) (message : Message) :
    (Step.ofMessage suite attacker place message).write.IsStandard suite.dh ∧
      (Step.ofMessage suite attacker place message).read.IsStandard suite.dh := by
  have ending : IsStandard suite.dh (if place.isFinal then [.split] else []) := by
    cases place.isFinal <;> simp [IsStandard, Instruction.completed]
  constructor
  · apply IsStandard.append
    · intro instruction present
      obtain ⟨token, -, written⟩ := List.mem_flatMap.1 present
      exact isStandard_write _ _ token instruction written
    · exact List.forall_mem_cons.2 ⟨rfl, ending⟩
  · apply IsStandard.append
    · exact isStandard_readTokens _ _ _ _ _ message.tokens
    · exact List.forall_mem_cons.2 ⟨rfl, ending⟩

/-- The lines of such programs determine them. -/
theorem eq_of_lines {indent : String} (standard : program.IsStandard dh)
    (otherStandard : other.IsStandard dh)
    (same : (program.map fun instruction => indent ++ instruction.text) =
      other.map fun instruction => indent ++ instruction.text) : program = other := by
  induction program generalizing other with
  | nil => exact (List.map_eq_nil_iff.1 same.symm).symm
  | cons instruction rest ih =>
      cases other with
      | nil => cases same
      | cons otherInstruction others =>
          obtain ⟨first, standard⟩ := List.forall_mem_cons.1 standard
          obtain ⟨otherFirst, otherStandard⟩ := List.forall_mem_cons.1 otherStandard
          obtain ⟨sameLine, sameLines⟩ := List.cons.inj same
          rw [String.append_right_inj] at sameLine
          rw [ih standard otherStandard sameLines, ← first,
            Instruction.completed_of_text dh sameLine, otherFirst]

end Program

/-! ## The parts of a listing -/

namespace Step

variable {step other : Step}

/-- What marks the message that ends the key exchange. -/
def mark (step : Step) : String := if step.isFinal then " [final]" else ""

/-- The title of a program: a word with the number of the message, the party that
runs it and the mark. -/
def title (step : Step) (word : String) (role : Role) : String :=
  word ++ toString step.index ++ " (" ++ role.name ++ ")" ++ step.mark

/-- The programs of a step under their titles. -/
def parts (step : Step) : List (String × Program) :=
  [(step.title "write_message_" step.sender, step.write),
    (step.title "read_message_" step.receiver, step.read)]

theorem toList_title (step : Step) (word : String) (role : Role) :
    (step.title word role).toList =
      word.toList ++
        ((toString step.index).toList ++
          ' ' :: ("(" ++ role.name ++ ")" ++ step.mark).toList) := by
  have opening : " (".toList = ' ' :: "(".toList := by decide
  unfold title
  simp only [String.toList_append, opening, List.append_assoc, List.cons_append]

/-- A title tells the number of the message, who runs the program and whether the
message ends the key exchange. -/
theorem eq_of_title {word : String} {role otherRole : Role}
    (same : step.title word role = other.title word otherRole) :
    step.index = other.index ∧ role = otherRole ∧ step.isFinal = other.isFinal := by
  rw [← String.toList_inj, toList_title, toList_title] at same
  obtain ⟨sameIndex, rest⟩ :=
    Text.cut_at_first (Text.not_mem_number step.index ' ' (by decide) (by decide))
      (Text.not_mem_number other.index ' ' (by decide) (by decide))
      (List.append_cancel_left same)
  refine ⟨Text.number_injective (String.toList_inj.1 sameIndex), ?_⟩
  rw [String.toList_inj, mark, mark] at rest
  generalize step.isFinal = final, other.isFinal = otherFinal at rest
  revert rest
  cases role <;> cases otherRole <;> cases final <;> cases otherFinal <;> decide

/-- Titles have no line feed, whatever the number of the message. -/
theorem isLine_title {word : String} (isLine : Text.IsLine word) (role : Role) :
    Text.IsLine (step.title word role) := by
  have number : Text.IsLine (toString step.index) :=
    Text.not_mem_number step.index '\n' (by decide) (by decide)
  have rest : Text.IsLine ("(" ++ role.name ++ ")" ++ step.mark) := by
    rw [mark]
    cases role <;> cases step.isFinal <;> decide
  rw [Text.IsLine, toList_title, List.mem_append, List.mem_append, List.mem_cons]
  rintro (inWord | inNumber | space | inRest)
  · exact isLine inWord
  · exact number inNumber
  · cases space
  · exact rest inRest

theorem eq_of_parts {steps others : List Step}
    (same : steps.flatMap parts = others.flatMap parts) :
    steps = others := by
  induction steps generalizing others with
  | nil =>
      cases others with
      | nil => rfl
      | cons => cases same
  | cons step rest ih =>
      cases others with
      | nil => cases same
      | cons other others =>
          obtain ⟨sameWrite, same⟩ := List.cons.inj same
          obtain ⟨sameRead, same⟩ := List.cons.inj same
          obtain ⟨title, write⟩ := Prod.mk.inj sameWrite
          obtain ⟨-, read⟩ := Prod.mk.inj sameRead
          obtain ⟨index, sender, isFinal⟩ := eq_of_title title
          rw [ih same]
          cases step
          cases other
          simp_all

end Step

namespace Protocol

variable {protocol other : Protocol} {indent : String}

/-- The programs of a protocol under their titles. -/
def parts (protocol : Protocol) : List (String × Program) :=
  ("initialize_initiator", protocol.initialization .initiator) ::
    ("initialize_responder", protocol.initialization .responder) ::
      protocol.steps.flatMap Step.parts

theorem listingLines_eq (protocol : Protocol) (indent : String) :
    protocol.listingLines indent =
      protocol.fullName ::
        (protocol.parts.flatMap (fun part => block indent part.1 part.2) ++
          [protocol.transportLine]) := by
  have steps : protocol.steps.flatMap (stepLines indent) =
      (protocol.steps.flatMap Step.parts).flatMap fun part =>
        block indent part.1 part.2 := by
    rw [List.flatMap_assoc]
    apply List.flatMap_congr
    intro step _
    simp only [Step.parts, List.flatMap_cons, List.flatMap_nil, List.append_nil]
    rfl
  simp only [listingLines, parts, steps, List.flatMap_cons, List.cons_append,
    List.append_assoc]

/-! ## Kinds of lines -/

theorem getLast?_title (title : String) :
    (title ++ ":").toList.getLast? = some ':' := by
  simp

theorem getLast?_line (indent : String) (instruction : Instruction) :
    (indent ++ instruction.text).toList.getLast? = some ')' := by
  rw [String.toList_append, Instruction.toList_text, ← List.cons_append,
    ← List.append_assoc, ← List.append_assoc, List.getLast?_concat]

/-- The last line ends with a letter, and with which one depends on the number of
ciphers that are used. -/
theorem getLast?_transportLine (protocol : Protocol) :
    protocol.transportLine.toList.getLast? =
      some (if protocol.oneWaySender.isSome then 'A' else 'B') := by
  unfold transportLine
  cases protocol.oneWaySender with
  | none => rfl
  | some sender => cases sender <;> rfl

/-- Whether a line ends like an instruction. -/
def isInstructionLine (line : String) : Bool := line.toList.getLast? == some ')'

/-- A line that ends like no title and no instruction. -/
structure IsClosing (line : String) : Prop where
  noTitle : line.toList.getLast? ≠ some ':'
  noInstruction : line.toList.getLast? ≠ some ')'

theorem isClosing_transportLine (protocol : Protocol) :
    IsClosing protocol.transportLine := by
  constructor
  · rw [getLast?_transportLine]
    split <;> decide
  · rw [getLast?_transportLine]
    split <;> decide

variable {dh : DhFunction} {parts others : List (String × Program)}
  {last otherLast : String}

/-- After the instructions of a program comes another title or the end. -/
theorem boundary_of_parts (closing : IsClosing last) :
    ∀ line ∈ (parts.flatMap (fun part => block indent part.1 part.2) ++ [last]).head?,
      isInstructionLine line = false := by
  cases parts with
  | nil =>
      rintro line ⟨⟩
      simpa [isInstructionLine] using closing.noInstruction
  | cons part rest =>
      rintro line ⟨⟩
      rw [isInstructionLine, getLast?_title]
      rfl

/-- Programs under titles are determined by their lines. -/
theorem eq_of_blocks (standard : ∀ part ∈ parts, part.2.IsStandard dh)
    (otherStandard : ∀ part ∈ others, part.2.IsStandard dh) (closing : IsClosing last)
    (otherClosing : IsClosing otherLast)
    (same : parts.flatMap (fun part => block indent part.1 part.2) ++ [last] =
      others.flatMap (fun part => block indent part.1 part.2) ++ [otherLast]) :
    parts = others ∧ last = otherLast := by
  induction parts generalizing others with
  | nil =>
      cases others with
      | nil => exact ⟨rfl, (List.cons.inj same).1⟩
      | cons part rest =>
          obtain ⟨rfl, -⟩ := List.cons.inj same
          exact absurd (getLast?_title part.1) closing.noTitle
  | cons part rest ih =>
      cases others with
      | nil =>
          obtain ⟨rfl, -⟩ := List.cons.inj same
          exact absurd (getLast?_title part.1) otherClosing.noTitle
      | cons otherPart others =>
          obtain ⟨ofPart, standard⟩ := List.forall_mem_cons.1 standard
          obtain ⟨ofOther, otherStandard⟩ := List.forall_mem_cons.1 otherStandard
          rw [List.flatMap_cons, List.flatMap_cons, List.append_assoc,
            List.append_assoc] at same
          obtain ⟨sameTitle, same⟩ := List.cons.inj same
          have instructions : ∀ program : Program,
              ∀ line ∈ program.map fun instruction =>
                indent ++ instruction.text, isInstructionLine line = true := by
            intro program line present
            obtain ⟨instruction, -, rfl⟩ := List.mem_map.1 present
            rw [isInstructionLine, getLast?_line]
            rfl
          obtain ⟨sameProgram, same⟩ :=
            Text.cut_at_boundary (instructions part.2) (instructions otherPart.2)
              (boundary_of_parts closing) (boundary_of_parts otherClosing) same
          obtain ⟨sameRest, sameLast⟩ := ih standard otherStandard same
          have title : part.1 = otherPart.1 := (String.append_left_inj ":").1 sameTitle
          rw [Prod.ext title (Program.eq_of_lines ofPart ofOther sameProgram), sameRest]
          exact ⟨rfl, sameLast⟩

/-! ## The lines of a listing -/

theorem isLine_fullName (named : Text.IsLine protocol.name) :
    Text.IsLine protocol.fullName := by
  have dh : Text.IsLine protocol.suite.dh.name := by cases protocol.suite.dh <;> decide
  have cipher : Text.IsLine protocol.suite.cipher.name := by
    cases protocol.suite.cipher <;> decide
  have hash : Text.IsLine protocol.suite.hash.name := by
    cases protocol.suite.hash <;> decide
  have word : Text.IsLine Suite.protocolWord := by decide
  have joint : Text.IsLine "_" := by decide
  simp only [fullName, Suite.protocolName, Text.isLine_append]
  exact ⟨⟨⟨⟨⟨⟨⟨⟨word, joint⟩, named⟩, joint⟩, dh⟩, joint⟩, cipher⟩, joint⟩, hash⟩

theorem isLine_transportLine (protocol : Protocol) :
    Text.IsLine protocol.transportLine := by
  unfold transportLine
  cases protocol.oneWaySender with
  | none => decide
  | some sender => cases sender <;> decide

theorem isLine_of_mem_parts {part : String × Program}
    (present : part ∈ protocol.parts) : Text.IsLine part.1 := by
  simp only [Protocol.parts, Step.parts, List.mem_cons, List.mem_flatMap,
    List.not_mem_nil, or_false] at present
  obtain rfl | rfl | ⟨step, -, rfl | rfl⟩ := present
  · exact (by decide : Text.IsLine "initialize_initiator")
  · exact (by decide : Text.IsLine "initialize_responder")
  · exact Step.isLine_title (by decide) _
  · exact Step.isLine_title (by decide) _

theorem isLine_of_mem_listingLines (indented : Text.IsLine indent)
    (named : Text.IsLine protocol.name) :
    ∀ line ∈ protocol.listingLines indent, Text.IsLine line := by
  intro line present
  rw [listingLines_eq] at present
  simp only [block, List.mem_cons, List.mem_append, List.mem_flatMap, List.mem_map,
    List.not_mem_nil, or_false] at present
  obtain rfl | ⟨part, ofProtocol, rfl | ⟨instruction, -, rfl⟩⟩ | rfl := present
  · exact isLine_fullName named
  · exact Text.isLine_append.2 ⟨isLine_of_mem_parts ofProtocol, by decide⟩
  · exact Text.isLine_append.2 ⟨indented, instruction.isLine_text⟩
  · exact protocol.isLine_transportLine

/-! ## Compiled protocols -/

theorem IsCompiled.isStandard (compiled : protocol.IsCompiled) :
    ∀ part ∈ protocol.parts, part.2.IsStandard protocol.suite.dh := by
  intro part present
  simp only [Protocol.parts, Step.parts, List.mem_cons, List.mem_flatMap,
    List.not_mem_nil, or_false, compiled.steps_eq,
    compiled.initialization_eq] at present
  obtain rfl | rfl | ⟨step, ofMessages, present⟩ := present
  · exact Program.isStandard_initialization _ _
  · exact Program.isStandard_initialization _ _
  · obtain ⟨⟨message, index⟩, -, rfl⟩ := List.mem_map.1 ofMessages
    obtain ⟨write, read⟩ :=
      Program.isStandard_ofMessage protocol.suite protocol.attacker
        (.ofAnalysis protocol.analysis index) message
    obtain rfl | rfl := present
    · exact write
    · exact read

/-- Nothing is lost in a listing.  Two protocols with the same listing, for whatever
indent and whatever attackers they were compiled, have the same name, and so the
same pattern name and suite; each role starts with the same program; the messages
have the same programs, with the expected lengths that no text shows; and one is
one-way if the other is. -/
theorem listing_determines_protocol {draft otherDraft : Draft}
    {suite otherSuite : Suite} {attacker otherAttacker : AttackerModel}
    {protocol other : Protocol} {indent : String}
    (compiled : compile draft suite attacker = .ok protocol)
    (otherCompiled : compile otherDraft otherSuite otherAttacker = .ok other)
    (indented : Text.IsLine indent) (named : Text.IsLine protocol.name)
    (otherNamed : Text.IsLine other.name)
    (same : protocol.listing indent = other.listing indent) :
    protocol.fullName = other.fullName ∧ protocol.pattern.name = other.pattern.name ∧
    protocol.suite = other.suite ∧
      protocol.initialization = other.initialization ∧ protocol.steps = other.steps ∧
      protocol.isOneWay = other.isOneWay := by
  obtain ⟨wellFormed, -, -⟩ := isCompiled_of_compile compiled
  obtain ⟨otherWellFormed, -, -⟩ := isCompiled_of_compile otherCompiled
  have lines : protocol.listingLines indent = other.listingLines indent :=
    Text.eq_of_joined (isLine_of_mem_listingLines indented named)
      (isLine_of_mem_listingLines indented otherNamed) same
  rw [listingLines_eq, listingLines_eq] at lines
  obtain ⟨sameFullName, sameBlocks⟩ := List.cons.inj lines
  obtain ⟨sameName, sameSuite⟩ := Suite.protocolName_injective sameFullName
  -- Only now that the suites agree do the expected lengths.
  obtain ⟨sameParts, sameTransport⟩ :=
    eq_of_blocks wellFormed.isStandard
      (sameSuite ▸ otherWellFormed.isStandard) protocol.isClosing_transportLine
      other.isClosing_transportLine sameBlocks
  obtain ⟨initiator, sameParts⟩ := List.cons.inj sameParts
  obtain ⟨responder, sameSteps⟩ := List.cons.inj sameParts
  refine ⟨sameFullName, ?_, sameSuite, ?_, Step.eq_of_parts sameSteps, ?_⟩
  · rw [name_of_compile compiled, name_of_compile otherCompiled, sameName]
  · funext role
    cases role with
    | initiator => exact (Prod.mk.inj initiator).2
    | responder => exact (Prod.mk.inj responder).2
  · have letter := congrArg (·.toList.getLast?) sameTransport
    simp only [getLast?_transportLine, wellFormed.isSome_oneWaySender,
      otherWellFormed.isSome_oneWaySender] at letter
    revert letter
    cases protocol.isOneWay <;> cases other.isOneWay <;> decide

open Catalog in
/-- Two patterns that differ only after the final message have the same listing. -/
theorem listing_determines_protocol_of_tail :
    ∃ protocol other,
      compile (entry "P" [] [send [psk, s], recv []]).toDraft {} .passive =
        .ok protocol ∧
      compile (entry "P" [] [send [psk, s], recv [], send []]).toDraft {} .passive =
        .ok other ∧
      Text.IsLine "  " ∧ Text.IsLine protocol.name ∧ Text.IsLine other.name ∧
      protocol.listing "  " = other.listing "  " ∧
      protocol.fullName = other.fullName ∧ protocol.pattern.name = other.pattern.name ∧
      protocol.suite = other.suite ∧ protocol.initialization = other.initialization ∧
      protocol.steps = other.steps ∧ protocol.isOneWay = other.isOneWay := by
  obtain ⟨protocol, other, compiled, otherCompiled, named, otherNamed, same⟩ :
      ∃ protocol other,
        compile (entry "P" [] [send [psk, s], recv []]).toDraft {} .passive =
          .ok protocol ∧
        compile (entry "P" [] [send [psk, s], recv [], send []]).toDraft {} .passive =
          .ok other ∧
        Text.IsLine protocol.name ∧ Text.IsLine other.name ∧
        protocol.listing "  " = other.listing "  " :=
    ⟨_, _, rfl, rfl, (by decide : Text.IsLine "P"), (by decide : Text.IsLine "P"), rfl⟩
  have indented : Text.IsLine "  " := by decide
  exact ⟨protocol, other, compiled, otherCompiled, indented, named, otherNamed, same,
    listing_determines_protocol compiled otherCompiled indented named otherNamed same⟩

end Protocol

end Noise
