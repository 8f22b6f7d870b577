import Stencil.Proofs.Nesting
import Stencil.Proofs.Spans
import Stencil.Proofs.Spelling

/-!
# Printed programs

How a program is written down.  Between the tokens of a header any blanks may stand,
so a program has many printed texts.  Not every tree can be written so that it is
read again: the well-formed ones are those that the grammar allows, and a text must
not stand directly after something that it would continue.
-/

namespace Stencil

def isName (text : String) : Bool :=
  startsWith isNameStart text.toList && text.toList.all isNameCharacter

/-- The words that do not stand for themselves in a header. -/
def reservedWords : List String :=
  [loopWord, "true", "false", "null"]

/-- Whether a text can be the name of a variable that a header defines. -/
def isVariableName (text : String) : Bool :=
  isName text && !reservedWords.contains text

/-- Whether a step of a path can be written. -/
def PathSegment.wellFormed : PathSegment → Bool
  | .field name => isName name
  | .index position => position < Nat.pow 2 63

def VariablePath.wellFormed (path : VariablePath) : Bool :=
  isName path.root && path.segments.all PathSegment.wellFormed

/-- Whether a constant has an exact text. -/
def Literal.wellFormed : Literal → Bool
  | .float _ => false
  | _ => true

mutual

def Expression.wellFormed : Expression → Bool
  | .path path _ => path.wellFormed
  | .literal value _ => value.wellFormed
  | .call name arguments _ => isName name && argumentsWellFormed arguments

/-- Whether several expressions can be written. -/
def argumentsWellFormed : List Expression → Bool
  | [] => true
  | argument :: arguments => argument.wellFormed && argumentsWellFormed arguments

end

/-- Whether a body begins with literal text. -/
def startsWithText : List Node → Bool
  | .text _ _ :: _ => true
  | _ => false

def Node.isText : Node → Bool
  | .text _ _ => true
  | _ => false

mutual

def Node.wellFormed : Node → Bool
  | .text content _ => content != ""
  | .output expression => expression.standsInText && expression.wellFormed
  | .conditional branches otherwise _ =>
      !branches.isEmpty && branchesWellFormed branches && otherwiseWellFormed otherwise
  | .loop key item iterable body _ =>
      key.all isVariableName && isVariableName item && iterable.wellFormed &&
        bodyWellFormed body
  | .binding name value _ => isVariableName name && value.wellFormed

/-- Whether the branches of a conditional can be written. -/
def branchesWellFormed : List Branch → Bool
  | [] => true
  | branch :: branches => branch.wellFormed && branchesWellFormed branches

def Branch.wellFormed : Branch → Bool
  | .mk condition body => condition.wellFormed && bodyWellFormed body

/-- Whether the last body of a conditional can be written. -/
def otherwiseWellFormed : Option (List Node) → Bool
  | none => true
  | some body => bodyWellFormed body

/-- Whether a body can be written: all nodes can, and no text stands directly after
another one. -/
def bodyWellFormed : List Node → Bool
  | [] => true
  | node :: nodes =>
      node.wellFormed && !(node.isText && startsWithText nodes) && bodyWellFormed nodes

end

/-- Whether the last step of a path, if there is one, is an index. -/
def endsWithIndex (segments : List PathSegment) : Bool :=
  match segments.getLast? with
  | some (.index _) => true
  | _ => false

/-- Whether a path ends where a text begins: the text begins neither with a further
step nor with more of the last name. -/
def VariablePath.endsBefore (path : VariablePath) (text : List Char) : Bool :=
  (readPathPiece? text).isNone &&
    (endsWithIndex path.segments || !startsWith isNameCharacter text)

def wordEndsBefore (text : List Char) : Bool :=
  !startsWith isNameCharacter text

/-- Whether a node ends where a text begins. -/
def Node.endsBefore : Node → List Char → Bool
  | .output (.path path _), characters => path.endsBefore characters
  | .conditional _ _ _, characters => wordEndsBefore characters
  | .loop _ _ _ _ _, characters => wordEndsBefore characters
  | _, _ => true

/-- Whether something ends before a body, if that begins with literal text. -/
def endsBeforeText (endsBefore : List Char → Bool) : List Node → Bool
  | .text content _ :: _ => endsBefore content.toList
  | _ => true

mutual

/-- Whether all literal texts inside a node stand apart from what is before them. -/
def Node.textsApart : Node → Bool
  | .conditional branches otherwise _ =>
      branchesTextsApart branches && otherwiseTextsApart otherwise
  | .loop _ _ _ body _ => bodyTextsApart body
  | _ => true

/-- Whether all literal texts of branches stand apart from what is before them. -/
def branchesTextsApart : List Branch → Bool
  | [] => true
  | branch :: branches => branch.textsApart && branchesTextsApart branches

/-- Whether all literal texts of a branch stand apart from what is before them. -/
def Branch.textsApart : Branch → Bool
  | .mk _ body => bodyTextsApart body

/-- Whether all literal texts of the last body of a conditional stand apart from what
is before them. -/
def otherwiseTextsApart : Option (List Node) → Bool
  | none => true
  | some body => endsBeforeText wordEndsBefore body && bodyTextsApart body

/-- Whether all literal texts of a body stand apart from what is before them. -/
def bodyTextsApart : List Node → Bool
  | [] => true
  | node :: nodes =>
      node.textsApart && endsBeforeText node.endsBefore nodes && bodyTextsApart nodes

end

/-- Literal text as it is written: every sigil is doubled. -/
def writtenText (content : List Char) : List Char :=
  content.flatMap fun character =>
    if isSigil character then [character, character] else [character]

theorem writtenText_sigil {character : Char} (sigil : isSigil character)
    (content : List Char) :
    writtenText (character :: content) =
      character :: character :: writtenText content := by
  simp [writtenText, sigil]

theorem writtenText_plain {character : Char} (plain : isSigil character = false)
    (content : List Char) :
    writtenText (character :: content) = character :: writtenText content := by
  simp [writtenText, plain]

def writtenContent (content : List Char) : List Char :=
  content.flatMap fun character =>
    if character = '\\' ∨ character = '"' then ['\\', character] else [character]

def Literal.written : Literal → List Char
  | .string content => '"' :: (writtenContent content.toList ++ ['"'])
  | .integer number => (integerText number.toInt).toList
  | .float number => number.shortestText.toList
  | .boolean true => "true".toList
  | .boolean false => "false".toList
  | .null => "null".toList

def Blanks (run : List Char) : Prop :=
  ∀ character ∈ run, isBlank character

/-- A printed text with blanks on both sides. -/
def Padded (printed : List Char → Prop) (text : List Char) : Prop :=
  ∃ before own after, text = before ++ (own ++ after) ∧ Blanks before ∧
    Blanks after ∧ printed own

mutual

def Expression.PrintedAs : Expression → List Char → Prop
  | .path path _, text => text = path.text.toList
  | .literal value _, text => text = value.written
  | .call name arguments _, text =>
      ∃ inside, text = '@' :: (name.toList ++ '(' :: (inside ++ [')'])) ∧
        ArgumentsPrintedAs arguments inside

/-- A text prints arguments, with commas between them. -/
def ArgumentsPrintedAs : List Expression → List Char → Prop
  | [], text => Blanks text
  | argument :: arguments, text =>
      ∃ own others, text = own ++ others ∧ Padded argument.PrintedAs own ∧
        FurtherArgumentsPrintedAs arguments others

/-- A text prints arguments, with a comma before each. -/
def FurtherArgumentsPrintedAs : List Expression → List Char → Prop
  | [], text => text = []
  | argument :: arguments, text =>
      ∃ own others, text = ',' :: (own ++ others) ∧ Padded argument.PrintedAs own ∧
        FurtherArgumentsPrintedAs arguments others

end

/-- A text prints the names of a loop and the blanks after them. -/
def LoopNamesPrintedAs (key : Option String) (item : String) (text : List Char) :
    Prop :=
  ∃ names blanks, text = names ++ blanks ∧ Blanks blanks ∧ blanks ≠ [] ∧
    match key with
    | none => ∃ before, names = before ++ item.toList ∧ Blanks before
    | some key => ∃ own before, names = own ++ ',' :: (before ++ item.toList) ∧
        Padded (· = key.toList) own ∧ Blanks before

/-- A text prints the word of a keyword. -/
def Keyword.written (keyword : Keyword) : List Char :=
  '#' :: keyword.word.toList

def HeaderPrintedAs (keyword : Keyword) (inside text : List Char) : Prop :=
  text = keyword.written ++ ' ' :: '(' :: (inside ++ [')'])

mutual

def Node.PrintedAs : Node → List Char → Prop
  | .text content _, text => text = writtenText content.toList
  | .output expression, text => expression.PrintedAs text
  | .conditional branches otherwise _, text =>
      ∃ chain last, text = chain ++ (last ++ Keyword.endBlock.written) ∧
        BranchesPrintedAs .ifBlock branches chain ∧ OtherwisePrintedAs otherwise last
  | .loop key item iterable body _, text =>
      ∃ header names before own inside,
        text = header ++ (inside ++ Keyword.endBlock.written) ∧
        HeaderPrintedAs .forBlock (names ++ (loopWord.toList ++ (before ++ own)))
          header ∧
        LoopNamesPrintedAs key item names ∧ Blanks before ∧ before ≠ [] ∧
          Padded iterable.PrintedAs own ∧ BodyPrintedAs body inside
  | .binding name value _, text =>
      ∃ own others, HeaderPrintedAs .letBinding (own ++ '=' :: others) text ∧
        Padded (· = name.toList) own ∧ Padded value.PrintedAs others

/-- A text prints branches, the first of which begins with a given keyword. -/
def BranchesPrintedAs (keyword : Keyword) : List Branch → List Char → Prop
  | [], text => text = []
  | branch :: branches, text =>
      ∃ own others, text = own ++ others ∧ branch.PrintedAs keyword own ∧
        BranchesPrintedAs .elifBranch branches others

def Branch.PrintedAs (keyword : Keyword) : Branch → List Char → Prop
  | .mk condition body, text =>
      ∃ own header inside, text = header ++ inside ∧
        HeaderPrintedAs keyword own header ∧ Padded condition.PrintedAs own ∧
          BodyPrintedAs body inside

/-- A text prints the last body of a conditional. -/
def OtherwisePrintedAs : Option (List Node) → List Char → Prop
  | none, text => text = []
  | some body, text =>
      ∃ inside, text = Keyword.elseBranch.written ++ inside ∧ BodyPrintedAs body inside

def BodyPrintedAs : List Node → List Char → Prop
  | [], text => text = []
  | node :: nodes, text =>
      ∃ own others, text = own ++ others ∧ node.PrintedAs own ∧
        BodyPrintedAs nodes others

end

def Program.wellFormed (program : Program) : Bool :=
  bodyWellFormed program.nodes

/-- Whether all literal texts of a program stand apart from what is before them. -/
def Program.textsApart (program : Program) : Bool :=
  bodyTextsApart program.nodes

def Program.PrintedAs (program : Program) (text : String) : Prop :=
  BodyPrintedAs program.nodes text.toList

theorem Blanks.nil : Blanks [] :=
  nofun

theorem Padded.of {printed : List Char → Prop} {own : List Char} (prints : printed own) :
    Padded printed own :=
  ⟨[], own, [], (List.append_nil own).symm, .nil, .nil, prints⟩

mutual

theorem Expression.exists_printedAs : ∀ expression : Expression,
    ∃ text, expression.PrintedAs text
  | .path path span => ⟨_, rfl⟩
  | .literal value span => ⟨_, rfl⟩
  | .call name arguments span => by
      obtain ⟨inside, prints⟩ := exists_argumentsPrintedAs arguments
      exact ⟨_, inside, rfl, prints⟩

theorem exists_argumentsPrintedAs : ∀ arguments : List Expression,
    ∃ text, ArgumentsPrintedAs arguments text
  | [] => ⟨[], .nil⟩
  | argument :: arguments => by
      obtain ⟨own, prints⟩ := argument.exists_printedAs
      obtain ⟨others, further⟩ := exists_furtherArgumentsPrintedAs arguments
      exact ⟨_, own, others, rfl, .of prints, further⟩

theorem exists_furtherArgumentsPrintedAs : ∀ arguments : List Expression,
    ∃ text, FurtherArgumentsPrintedAs arguments text
  | [] => ⟨[], rfl⟩
  | argument :: arguments => by
      obtain ⟨own, prints⟩ := argument.exists_printedAs
      obtain ⟨others, further⟩ := exists_furtherArgumentsPrintedAs arguments
      exact ⟨_, own, others, rfl, .of prints, further⟩

end

theorem Blanks.single {character : Char} (blank : isBlank character) :
    Blanks [character] :=
  List.forall_mem_singleton.mpr blank

theorem blanks_space : Blanks [' '] :=
  .single rfl

theorem exists_loopNamesPrintedAs (key : Option String) (item : String) :
    ∃ text, LoopNamesPrintedAs key item text := by
  cases key with
  | none =>
      exact ⟨_, _, [' '], rfl, blanks_space, by simp, [], rfl, .nil⟩
  | some key =>
      exact ⟨_, _, [' '], rfl, blanks_space, by simp, key.toList, [], rfl, .of rfl, .nil⟩

mutual

theorem Node.exists_printedAs : ∀ node : Node, ∃ text, node.PrintedAs text
  | .text content span => ⟨_, rfl⟩
  | .output expression => expression.exists_printedAs
  | .conditional branches otherwise span => by
      obtain ⟨chain, branchesPrint⟩ := exists_branchesPrintedAs .ifBlock branches
      obtain ⟨last, lastPrints⟩ := exists_otherwisePrintedAs otherwise
      exact ⟨_, chain, last, rfl, branchesPrint, lastPrints⟩
  | .loop key item iterable body span => by
      obtain ⟨names, namesPrint⟩ := exists_loopNamesPrintedAs key item
      obtain ⟨own, iterablePrints⟩ := iterable.exists_printedAs
      obtain ⟨inside, bodyPrints⟩ := exists_bodyPrintedAs body
      exact ⟨_, _, names, [' '], own, inside, rfl, rfl, namesPrint, blanks_space, by simp,
        .of iterablePrints, bodyPrints⟩
  | .binding name value span => by
      obtain ⟨own, valuePrints⟩ := value.exists_printedAs
      exact ⟨_, name.toList, own, rfl, .of rfl, .of valuePrints⟩

theorem exists_branchesPrintedAs (keyword : Keyword) : ∀ branches : List Branch,
    ∃ text, BranchesPrintedAs keyword branches text
  | [] => ⟨[], rfl⟩
  | branch :: branches => by
      obtain ⟨own, prints⟩ := branch.exists_printedAs keyword
      obtain ⟨others, further⟩ := exists_branchesPrintedAs .elifBranch branches
      exact ⟨_, own, others, rfl, prints, further⟩

theorem Branch.exists_printedAs (keyword : Keyword) : ∀ branch : Branch,
    ∃ text, branch.PrintedAs keyword text
  | .mk condition body => by
      obtain ⟨own, conditionPrints⟩ := condition.exists_printedAs
      obtain ⟨inside, bodyPrints⟩ := exists_bodyPrintedAs body
      exact ⟨_, own, _, inside, rfl, rfl, .of conditionPrints, bodyPrints⟩

theorem exists_otherwisePrintedAs : ∀ otherwise : Option (List Node),
    ∃ text, OtherwisePrintedAs otherwise text
  | none => ⟨[], rfl⟩
  | some body => by
      obtain ⟨inside, prints⟩ := exists_bodyPrintedAs body
      exact ⟨_, inside, rfl, prints⟩

/-- Every body has a printed text. -/
theorem exists_bodyPrintedAs : ∀ nodes : List Node, ∃ text, BodyPrintedAs nodes text
  | [] => ⟨[], rfl⟩
  | node :: nodes => by
      obtain ⟨own, prints⟩ := node.exists_printedAs
      obtain ⟨others, further⟩ := exists_bodyPrintedAs nodes
      exact ⟨_, own, others, rfl, prints, further⟩

end

/-- Every program has a printed text. -/
theorem Program.exists_printedAs (program : Program) :
    ∃ text, program.PrintedAs text := by
  obtain ⟨text, prints⟩ := exists_bodyPrintedAs program.nodes
  exact ⟨String.ofList text, by simpa [Program.PrintedAs] using prints⟩

end Stencil
