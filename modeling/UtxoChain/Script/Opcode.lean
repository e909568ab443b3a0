import UtxoChain.Bytes.Hex

/-!
# The opcode table

Every opcode has a byte and a name, both unique. The bytes `01` to `4b` are direct pushes: they
carry that many bytes of payload and stand outside the table. `ofByte?` and `ofName?` read the two
columns backwards, so the table is written once.
-/

namespace UtxoChain

/-- The opcodes of the table. -/
inductive Opcode
  | op0 | pushData1 | pushData2 | pushData4 | negate1 | op1 | op2 | op3 | op4 | op5 | op6 | op7
  | op8 | op9 | op10 | op11 | op12 | op13 | op14 | op15 | op16
  | ifOp | notIfOp | elseOp | endIfOp | verify | returnOp | toAltStack | fromAltStack
  | drop2 | dup2 | dup3 | over2 | rot2 | swap2 | ifDup | depth | drop | dup | nip | over | pick
  | roll | rot | swap | tuck
  | cat | substr | left | right | size
  | invert | bitAnd | bitOr | bitXor | equal | equalVerify
  | add1 | sub1 | mul2 | div2 | negate | abs | notOp | notEqual0 | add | sub | mul | div | mod
  | shiftLeft | shiftRight | boolAnd | boolOr | numEqual | numEqualVerify | numNotEqual
  | lessThan | greaterThan | lessThanOrEqual | greaterThanOrEqual | min | max | within
  | blake3 | doubleBlake3 | checkSig | checkSigVerify | checkMultiSig | checkMultiSigVerify
  | checkLockAbsVerify | checkLockRelVerify
deriving DecidableEq, Inhabited

namespace Opcode

/-- The byte that writes an opcode. -/
def toByte : Opcode → UInt8
  | .op0 => 0x00
  | .pushData1 => 0x4c
  | .pushData2 => 0x4d
  | .pushData4 => 0x4e
  | .negate1 => 0x4f
  | .op1 => 0x51
  | .op2 => 0x52
  | .op3 => 0x53
  | .op4 => 0x54
  | .op5 => 0x55
  | .op6 => 0x56
  | .op7 => 0x57
  | .op8 => 0x58
  | .op9 => 0x59
  | .op10 => 0x5a
  | .op11 => 0x5b
  | .op12 => 0x5c
  | .op13 => 0x5d
  | .op14 => 0x5e
  | .op15 => 0x5f
  | .op16 => 0x60
  | .ifOp => 0x63
  | .notIfOp => 0x64
  | .elseOp => 0x67
  | .endIfOp => 0x68
  | .verify => 0x69
  | .returnOp => 0x6a
  | .toAltStack => 0x6b
  | .fromAltStack => 0x6c
  | .drop2 => 0x6d
  | .dup2 => 0x6e
  | .dup3 => 0x6f
  | .over2 => 0x70
  | .rot2 => 0x71
  | .swap2 => 0x72
  | .ifDup => 0x73
  | .depth => 0x74
  | .drop => 0x75
  | .dup => 0x76
  | .nip => 0x77
  | .over => 0x78
  | .pick => 0x79
  | .roll => 0x7a
  | .rot => 0x7b
  | .swap => 0x7c
  | .tuck => 0x7d
  | .cat => 0x7e
  | .substr => 0x7f
  | .left => 0x80
  | .right => 0x81
  | .size => 0x82
  | .invert => 0x83
  | .bitAnd => 0x84
  | .bitOr => 0x85
  | .bitXor => 0x86
  | .equal => 0x87
  | .equalVerify => 0x88
  | .add1 => 0x8b
  | .sub1 => 0x8c
  | .mul2 => 0x8d
  | .div2 => 0x8e
  | .negate => 0x8f
  | .abs => 0x90
  | .notOp => 0x91
  | .notEqual0 => 0x92
  | .add => 0x93
  | .sub => 0x94
  | .mul => 0x95
  | .div => 0x96
  | .mod => 0x97
  | .shiftLeft => 0x98
  | .shiftRight => 0x99
  | .boolAnd => 0x9a
  | .boolOr => 0x9b
  | .numEqual => 0x9c
  | .numEqualVerify => 0x9d
  | .numNotEqual => 0x9e
  | .lessThan => 0x9f
  | .greaterThan => 0xa0
  | .lessThanOrEqual => 0xa1
  | .greaterThanOrEqual => 0xa2
  | .min => 0xa3
  | .max => 0xa4
  | .within => 0xa5
  | .blake3 => 0xa6
  | .doubleBlake3 => 0xa7
  | .checkSig => 0xac
  | .checkSigVerify => 0xad
  | .checkMultiSig => 0xae
  | .checkMultiSigVerify => 0xaf
  | .checkLockAbsVerify => 0xb1
  | .checkLockRelVerify => 0xb2

/-- The name of an opcode in a text script. -/
def name : Opcode → String
  | .op0 => "0"
  | .pushData1 => "PUSHDATA1"
  | .pushData2 => "PUSHDATA2"
  | .pushData4 => "PUSHDATA4"
  | .negate1 => "1NEGATE"
  | .op1 => "1"
  | .op2 => "2"
  | .op3 => "3"
  | .op4 => "4"
  | .op5 => "5"
  | .op6 => "6"
  | .op7 => "7"
  | .op8 => "8"
  | .op9 => "9"
  | .op10 => "10"
  | .op11 => "11"
  | .op12 => "12"
  | .op13 => "13"
  | .op14 => "14"
  | .op15 => "15"
  | .op16 => "16"
  | .ifOp => "IF"
  | .notIfOp => "NOTIF"
  | .elseOp => "ELSE"
  | .endIfOp => "ENDIF"
  | .verify => "VERIFY"
  | .returnOp => "RETURN"
  | .toAltStack => "TOALTSTACK"
  | .fromAltStack => "FROMALTSTACK"
  | .drop2 => "2DROP"
  | .dup2 => "2DUP"
  | .dup3 => "3DUP"
  | .over2 => "2OVER"
  | .rot2 => "2ROT"
  | .swap2 => "2SWAP"
  | .ifDup => "IFDUP"
  | .depth => "DEPTH"
  | .drop => "DROP"
  | .dup => "DUP"
  | .nip => "NIP"
  | .over => "OVER"
  | .pick => "PICK"
  | .roll => "ROLL"
  | .rot => "ROT"
  | .swap => "SWAP"
  | .tuck => "TUCK"
  | .cat => "CAT"
  | .substr => "SUBSTR"
  | .left => "LEFT"
  | .right => "RIGHT"
  | .size => "SIZE"
  | .invert => "INVERT"
  | .bitAnd => "AND"
  | .bitOr => "OR"
  | .bitXor => "XOR"
  | .equal => "EQUAL"
  | .equalVerify => "EQUALVERIFY"
  | .add1 => "1ADD"
  | .sub1 => "1SUB"
  | .mul2 => "2MUL"
  | .div2 => "2DIV"
  | .negate => "NEGATE"
  | .abs => "ABS"
  | .notOp => "NOT"
  | .notEqual0 => "0NOTEQUAL"
  | .add => "ADD"
  | .sub => "SUB"
  | .mul => "MUL"
  | .div => "DIV"
  | .mod => "MOD"
  | .shiftLeft => "LSHIFT"
  | .shiftRight => "RSHIFT"
  | .boolAnd => "BOOLAND"
  | .boolOr => "BOOLOR"
  | .numEqual => "NUMEQUAL"
  | .numEqualVerify => "NUMEQUALVERIFY"
  | .numNotEqual => "NUMNOTEQUAL"
  | .lessThan => "LESSTHAN"
  | .greaterThan => "GREATERTHAN"
  | .lessThanOrEqual => "LESSTHANOREQUAL"
  | .greaterThanOrEqual => "GREATERTHANOREQUAL"
  | .min => "MIN"
  | .max => "MAX"
  | .within => "WITHIN"
  | .blake3 => "BLAKE3"
  | .doubleBlake3 => "DOUBLEBLAKE3"
  | .checkSig => "CHECKSIG"
  | .checkSigVerify => "CHECKSIGVERIFY"
  | .checkMultiSig => "CHECKMULTISIG"
  | .checkMultiSigVerify => "CHECKMULTISIGVERIFY"
  | .checkLockAbsVerify => "CHECKLOCKABSVERIFY"
  | .checkLockRelVerify => "CHECKLOCKRELVERIFY"

/-- Every opcode, in the order of the bytes. -/
def all : List Opcode :=
  [.op0, .pushData1, .pushData2, .pushData4, .negate1, .op1, .op2, .op3, .op4, .op5, .op6, .op7,
   .op8, .op9, .op10, .op11, .op12, .op13, .op14, .op15, .op16, .ifOp, .notIfOp, .elseOp, .endIfOp,
   .verify, .returnOp, .toAltStack, .fromAltStack, .drop2, .dup2, .dup3, .over2, .rot2, .swap2,
   .ifDup, .depth, .drop, .dup, .nip, .over, .pick, .roll, .rot, .swap, .tuck, .cat, .substr,
   .left, .right, .size, .invert, .bitAnd, .bitOr, .bitXor, .equal, .equalVerify, .add1, .sub1,
   .mul2, .div2, .negate, .abs, .notOp, .notEqual0, .add, .sub, .mul, .div, .mod, .shiftLeft,
   .shiftRight, .boolAnd, .boolOr, .numEqual, .numEqualVerify, .numNotEqual, .lessThan,
   .greaterThan, .lessThanOrEqual, .greaterThanOrEqual, .min, .max, .within, .blake3,
   .doubleBlake3, .checkSig, .checkSigVerify, .checkMultiSig, .checkMultiSigVerify,
   .checkLockAbsVerify, .checkLockRelVerify]

/-- The opcode that a byte writes, if it is in the table. -/
def ofByte? (byte : UInt8) : Option Opcode :=
  all.find? fun op => op.toByte == byte

/-- The opcode of a name, if it is in the table. -/
def ofName? (name : String) : Option Opcode :=
  all.find? fun op => op.name == name

/-- The largest byte of a direct push. -/
def maxDirectPush : UInt8 := 0x4b

/-- A direct push carries as many bytes as its own byte says. -/
def isDirectPush (byte : UInt8) : Bool :=
  1 ≤ byte && byte ≤ maxDirectPush

/-- The bytes whose chunks carry a payload: direct pushes and the three counted forms. -/
def isPushData (byte : UInt8) : Bool :=
  isDirectPush byte || byte == pushData1.toByte || byte == pushData2.toByte
    || byte == pushData4.toByte

/-- The number that one of the opcodes named 1 to 16 pushes. -/
def smallInt? (op : Opcode) : Option Nat :=
  if op1.toByte ≤ op.toByte ∧ op.toByte ≤ op16.toByte then
    some (op.toByte.toNat - op1.toByte.toNat + 1)
  else
    none

/-- The opcode that pushes a number from 0 to 16. -/
def ofSmallInt? (n : Nat) : Option Opcode :=
  if n = 0 then some op0
  else if n ≤ 16 then ofByte? (op1.toByte + UInt8.ofNat (n - 1))
  else none

/-- The opcodes that steer conditional execution, and therefore run in skipped branches too. -/
def isConditional : Opcode → Bool
  | .ifOp | .notIfOp | .elseOp | .endIfOp => true
  | _ => false

/-- The displayed name of any opcode byte: its name in the table, the width of a direct push, or the
byte itself. -/
def display (byte : UInt8) : String :=
  match ofByte? byte with
  | some op => op.name
  | none =>
    if isDirectPush byte then s!"PUSHBYTES{byte.toNat}"
    else s!"UNKNOWN(0x{Hex.encode [byte]})"

/-- The list of opcodes leaves none out. -/
theorem mem_all (op : Opcode) : op ∈ all := by
  cases op <;> decide

/-- Reading back the byte of an opcode gives the opcode. -/
theorem ofByte?_toByte (op : Opcode) : ofByte? op.toByte = some op := by
  have table : ∀ op ∈ all, ofByte? op.toByte = some op := by decide +kernel
  exact table op (mem_all op)

/-- Reading back the name of an opcode gives the opcode. -/
theorem ofName?_name (op : Opcode) : ofName? op.name = some op := by
  have table : ∀ op ∈ all, ofName? op.name = some op := by decide +kernel
  exact table op (mem_all op)

/-- A byte that reads as an opcode is the byte of that opcode. -/
theorem toByte_of_ofByte? {byte : UInt8} {op : Opcode} (h : ofByte? byte = some op) :
    op.toByte = byte := by
  simpa [ofByte?] using List.find?_some h

/-- A name that reads as an opcode is the name of that opcode. -/
theorem name_of_ofName? {name : String} {op : Opcode} (h : ofName? name = some op) :
    op.name = name := by
  simpa [ofName?] using List.find?_some h

end Opcode

end UtxoChain
