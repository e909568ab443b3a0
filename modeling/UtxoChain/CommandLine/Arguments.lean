import UtxoChain.Tx.Sighash

/-!
# Command line arguments

A command is named by two words, such as `tx decode`. Options start with two dashes and take a value,
either as the next argument or after an equals sign; the option for a parameter file may stand at
every level, and the innermost one counts. After a lone pair of dashes every argument is a value by
its place. Anything that does not fit is refused as a whole.
-/

namespace UtxoChain.CommandLine

/-- The commands. -/
inductive Command
  /-- Shows a transaction. -/
  | txDecode (hex : String)
  /-- Shows the digest that a signature of an input commits to. -/
  | txSighash (hex : String) (input : Nat) (script : String) (amount : UInt64)
      (hashType : SighashType)
  /-- Runs a script without a transaction. -/
  | scriptRun (text : String)
  /-- Turns the text of a script into its bytes. -/
  | scriptHex (text : String)
  /-- Turns the bytes of a script into its text. -/
  | scriptText (hex : String)
  /-- Shows a header. -/
  | headerDecode (hex : String)
  /-- Computes the target after a period. -/
  | headerRetarget (target : String) (timeDiff : UInt64)
  /-- Shows a block. -/
  | blockDecode (hex : String)
deriving DecidableEq

/-- A command with the path of the parameter file, if one is given. -/
structure Invocation where
  /-- The path of the parameter file. -/
  paramsPath : Option String
  /-- The command. -/
  command : Command
deriving DecidableEq

/-- What is read from the arguments of one level. -/
structure Arguments where
  /-- The options with their values, the last first. -/
  options : List (String × String)
  /-- The values by their places, the last first. -/
  values : List String

namespace Arguments

/-- No arguments. -/
def none : Arguments := ⟨[], []⟩

/-- The value of an option. -/
def option? (arguments : Arguments) (name : String) : Option String :=
  arguments.options.lookup name

/-- The arguments with one more option, which must not have been given before. -/
def addOption? (arguments : Arguments) (name value : String) : Option Arguments :=
  if (arguments.option? name).isSome then .none
  else some { arguments with options := (name, value) :: arguments.options }

/-- The arguments with one more value. -/
def addValue (arguments : Arguments) (value : String) : Arguments :=
  { arguments with values := value :: arguments.values }

end Arguments

/-- An argument that starts with a dash and has more to it is no value. -/
def looksLikeOption (argument : String) : Bool :=
  argument.toList.head? == some '-' && argument != "-"

/-- The name of an option and the value attached to it. -/
def optionParts? (argument : String) : Option (String × Option String) :=
  match argument.toList with
  | '-' :: '-' :: rest =>
    let name := String.ofList (rest.takeWhile (· != '='))
    match rest.dropWhile (· != '=') with
    | [] => some (name, none)
    | _ :: value => some (name, some (String.ofList value))
  | _ => none

/-- Reads the arguments of a level with the given options. `stop` says which value ends the level;
the result holds it and what follows it. -/
def readLevel (names : List String) (stop : String → Bool) :
    Arguments → List String → Option (Arguments × List String)
  | read, [] => some (read, [])
  | read, argument :: rest =>
    if argument = "--" then
      some (rest.foldl Arguments.addValue read, [])
    else if looksLikeOption argument then
      match optionParts? argument with
      | none => none
      | some (name, attached) =>
        if name ∉ names then none
        else
          match attached, rest with
          | some value, rest => do readLevel names stop (← read.addOption? name value) rest
          | none, [] => none
          | none, value :: rest =>
            if looksLikeOption value then none
            else do readLevel names stop (← read.addOption? name value) rest
    else if stop argument then some (read, argument :: rest)
    else readLevel names stop (read.addValue argument) rest

/-- The option that every level has. -/
def paramsOption : String := "params"

/-- The word that names a command or a group of them, what was read before it, and what follows. -/
def readWord (arguments : List String) : Option (Arguments × String × List String) :=
  match readLevel [paramsOption] (fun _ => true) .none arguments with
  | some (read, word :: rest) => some (read, word, rest)
  | _ => none

/-- A number below a bound. A plus sign may stand in front. -/
def readNat? (bound : Nat) (text : String) : Option Nat :=
  let digits := match text.toList with
    | '+' :: rest => rest
    | all => all
  let value := digits.foldl (fun n c => n * 10 + (c.toNat - 48)) 0
  if !digits.isEmpty && digits.all (fun c => '0' ≤ c && c ≤ '9') && value < bound then some value
  else none

/-- A byte. It is read as a number with a sign, so zero may be written with a minus. -/
def readByte? (text : String) : Option UInt8 :=
  match text.toList with
  | '-' :: rest =>
    if rest.head? = some '+' then none
    else (readNat? 1 (String.ofList rest)).map UInt8.ofNat
  | _ => (readNat? 256 text).map UInt8.ofNat

/-- A word of 64 bits. -/
def readWord64? (text : String) : Option UInt64 :=
  (readNat? UInt64.size text).map UInt64.ofNat

/-- The options of a command besides that for the parameter file. -/
def optionNames (group name : String) : List String :=
  match group, name with
  | "tx", "sighash" => ["input", "script", "amount", "hash-type"]
  | "header", "retarget" => ["target", "time-diff"]
  | _, _ => []

/-- The command of a group with a name, from its arguments. -/
def command? (group name : String) (read : Arguments) : Option Command :=
  match group, name, read.values with
  | "tx", "decode", [hex] => some (.txDecode hex)
  | "tx", "sighash", [hex] => do
    let input ← readNat? UInt64.size ((read.option? "input").getD "0")
    let amount ← readWord64? (← read.option? "amount")
    let hashType ← readByte? ((read.option? "hash-type").getD "1")
    return .txSighash hex input ((read.option? "script").getD "") amount ⟨hashType⟩
  | "script", "run", [text] => some (.scriptRun text)
  | "script", "hex", [text] => some (.scriptHex text)
  | "script", "text", [hex] => some (.scriptText hex)
  | "header", "decode", [hex] => some (.headerDecode hex)
  | "header", "retarget", [] => do
    let target ← read.option? "target"
    let timeDiff ← readWord64? (← read.option? "time-diff")
    return .headerRetarget target timeDiff
  | "block", "decode", [hex] => some (.blockDecode hex)
  | _, _, _ => none

/-- The invocation that some arguments spell. A path must not be empty, at any level. -/
def Invocation.parse? (arguments : List String) : Option Invocation := do
  let (outer, group, rest) ← readWord arguments
  let (middle, name, rest) ← readWord rest
  let names := paramsOption :: optionNames group name
  let (inner, _) ← readLevel names (fun _ => false) .none rest
  let paths := [inner, middle, outer].filterMap (·.option? paramsOption)
  if paths.contains "" then none
  else return ⟨paths.head?, ← command? group name inner⟩

end UtxoChain.CommandLine
