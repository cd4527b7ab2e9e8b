namespace Fabula

/-!
# Instructions

An instruction has a command, eight bits of flags and thirty-two bits of payload.
Each command has one byte; the bytes are the positions in the table of commands.
-/

/-- Operators with two operands. -/
inductive BinaryOperator where
  | add
  | subtract
  | divide
  | multiply
  | remainder
  | random
  | equal
  | greater
  | less
  | greaterOrEqual
  | lessOrEqual
  | notEqual
  | and
  | or
  | min
  | max
  | has
  | hasnt
  | intersection
  | listItem
  deriving Repr, DecidableEq

/-- Operators with one operand. -/
inductive UnaryOperator where
  | not
  | negate
  | listCount
  | listMin
  | listMax
  | readCountVar
  | turns
  | listRandom
  | floor
  | ceiling
  | toInt
  | toFloat
  | listAll
  | listInvert
  | listValue
  deriving Repr, DecidableEq

/-- What an instruction does. -/
inductive Command where
  /-- Push or write a text. -/
  | str
  /-- Push or write an integer. -/
  | int
  /-- Push or write a truth value. -/
  | bool
  /-- Push or write a number. -/
  | float
  /-- Push an address. -/
  | divertValue
  /-- Push or write a set of flags. -/
  | list
  /-- End a line, or push a line end. -/
  | newline
  /-- Join what follows to what is before. -/
  | glue
  /-- Push no value. -/
  | void
  /-- Add a tag. -/
  | tag
  /-- Go to an address, perhaps only on a condition. -/
  | divert
  /-- Go to the address that a variable holds. -/
  | divertToVariable
  /-- Call a tunnel. -/
  | tunnel
  /-- Call a function. -/
  | function
  /-- Stop this flow. -/
  | done
  /-- End the story. -/
  | finish
  /-- Return from a tunnel. -/
  | tunnelReturn
  /-- Return from a function. -/
  | functionReturn
  /-- Give a temporary a value. -/
  | defineTemp
  /-- Give a variable a value. -/
  | setVariable
  /-- Values are pushed from here on. -/
  | startEval
  /-- Values are written from here on. -/
  | endEval
  /-- Write the top of the stack. -/
  | output
  /-- Drop the top of the stack. -/
  | pop
  /-- Repeat the top of the stack. -/
  | duplicate
  /-- Push the value of a variable. -/
  | pushVariable
  /-- Push how often the innermost container was entered before. -/
  | visit
  /-- Push the number of turns. -/
  | turn
  /-- Push how often a container was entered. -/
  | readCount
  /-- Push the next element of a shuffled sequence. -/
  | sequence
  /-- Start the random numbers from a seed. -/
  | seed
  /-- Start a text on the stack. -/
  | startStr
  /-- Finish a text on the stack. -/
  | endStr
  /-- Start a tag. -/
  | startTag
  /-- Finish a tag. -/
  | endTag
  /-- Offer a choice. -/
  | choice
  /-- Keep the flags between two bounds. -/
  | listRange
  /-- Apply an operator to two operands. -/
  | binary (operator : BinaryOperator)
  /-- Apply an operator to one operand. -/
  | unary (operator : UnaryOperator)
  /-- Push the number of choices. -/
  | choiceCount
  /-- Enter a container. -/
  | startContainer
  /-- Leave a container. -/
  | endContainer
  /-- Call a function of the host. -/
  | callExternal
  /-- Run another place of the story, then come back. -/
  | thread
  /-- Push a reference to a variable. -/
  | valuePointer
  deriving Repr, DecidableEq

namespace Command

/-- The commands in the order of their bytes, with their names. -/
def table : List (Command × String) :=
  [
    (.str, "Str"), (.int, "Int"), (.bool, "Bool"), (.float, "Float"),
    (.divertValue, "DivertValue"), (.list, "List"), (.newline, "Newline"), (.glue, "Glue"),
    (.void, "Void"), (.tag, "Tag"), (.divert, "Divert"),
    (.divertToVariable, "DivertToVariable"), (.tunnel, "Tunnel"), (.function, "Function"),
    (.done, "Done"), (.finish, "End"), (.tunnelReturn, "TunnelReturn"),
    (.functionReturn, "FunctionReturn"), (.defineTemp, "DefineTemp"),
    (.setVariable, "SetVariable"), (.startEval, "StartEval"), (.endEval, "EndEval"),
    (.output, "Output"), (.pop, "Pop"), (.duplicate, "Duplicate"),
    (.pushVariable, "PushVariableValue"), (.visit, "Visit"), (.turn, "Turn"),
    (.readCount, "ReadCount"), (.sequence, "Sequence"), (.seed, "Seed"),
    (.startStr, "StartStr"), (.endStr, "EndStr"), (.startTag, "StartTag"), (.endTag, "EndTag"),
    (.choice, "Choice"), (.listRange, "ListRange"), (.binary .add, "Add"),
    (.binary .subtract, "Subtract"), (.binary .divide, "Divide"),
    (.binary .multiply, "Multiply"), (.binary .remainder, "Mod"), (.binary .random, "Random"),
    (.binary .equal, "IsEqual"), (.binary .greater, "GreaterThan"), (.binary .less, "LessThan"),
    (.binary .greaterOrEqual, "GreaterThanOrEquals"),
    (.binary .lessOrEqual, "LessThanOrEquals"), (.binary .notEqual, "NotEqual"),
    (.binary .and, "And"), (.binary .or, "Or"), (.binary .min, "Min"), (.binary .max, "Max"),
    (.binary .has, "Has"), (.binary .hasnt, "Hasnt"), (.binary .intersection, "Intersection"),
    (.binary .listItem, "ListInt"), (.unary .not, "Not"), (.unary .negate, "Negate"),
    (.unary .listCount, "ListCount"), (.unary .listMin, "ListMin"),
    (.unary .listMax, "ListMax"), (.unary .readCountVar, "ReadCountVar"),
    (.unary .turns, "Turns"), (.unary .listRandom, "ListRandom"), (.unary .floor, "Floor"),
    (.unary .ceiling, "Ceiling"), (.unary .toInt, "IntCast"), (.unary .toFloat, "FloatCast"),
    (.unary .listAll, "ListAll"), (.unary .listInvert, "ListInvert"),
    (.unary .listValue, "ListValue"), (.choiceCount, "ChoiceCount"),
    (.startContainer, "StartContainerMarker"), (.endContainer, "EndContainerMarker"),
    (.callExternal, "CallExternal"), (.thread, "Thread"), (.valuePointer, "ValuePointer")]

def byte (command : Command) : UInt8 :=
  UInt8.ofNat (table.findIdx (fun entry => entry.1 == command))

def ofByte? (byte : UInt8) : Option Command :=
  (table[byte.toNat]?).map Prod.fst

def name (command : Command) : String :=
  ((table.find? (fun entry => entry.1 == command)).map Prod.snd).getD ""

def ofName? (name : String) : Option Command :=
  (table.find? (fun entry => entry.2 == name)).map Prod.fst

def isBinary : Command → Bool
  | .binary _ => true
  | _ => false

def isUnary : Command → Bool
  | .unary _ => true
  | _ => false

/-- Commands whose payload is an address. -/
def hasAddress : Command → Bool
  | .divert | .tunnel | .function | .thread | .divertValue | .choice => true
  | _ => false

/-- Reading the byte of a command gives the command. -/
@[simp]
theorem ofByte?_byte (command : Command) : ofByte? command.byte = some command := by
  cases command with
  | binary operator => cases operator <;> decide
  | unary operator => cases operator <;> decide
  | _ => decide

end Command

/-- One instruction. -/
structure Instruction where
  command : Command
  flag : UInt8
  payload : UInt32
  deriving Repr, DecidableEq

namespace Instruction

/-- Whether one of the given bits is set in an instruction's flags. -/
def hasFlag (instruction : Instruction) (bits : UInt8) : Bool :=
  instruction.flag &&& bits != 0

def address (instruction : Instruction) : Nat :=
  instruction.payload.toNat

end Instruction

/-! ## Bits of an instruction's flags -/

namespace ChoiceFlag

/-- The choice is offered only on a condition. -/
def condition : UInt8 := 1

/-- The choice has text that is also shown after choosing. -/
def startContent : UInt8 := 2

/-- The choice has text that is shown only in the choice. -/
def choiceOnlyContent : UInt8 := 4

/-- The choice is never shown and is taken when no other is left. -/
def invisibleDefault : UInt8 := 8

/-- The choice is offered only until its target was visited. -/
def onceOnly : UInt8 := 16

end ChoiceFlag

namespace DivertFlag

/-- The divert is taken only on a condition. -/
def condition : UInt8 := 1

/-- The target of a tunnel, function or thread is held by a variable. -/
def toVariable : UInt8 := 4

end DivertFlag

namespace AssignmentFlag

def redefine : UInt8 := 1

end AssignmentFlag

end Fabula
