-- SUMMARY: Reading options from the arguments of a command line and from the environment, first problem first.
import MetricIntake.Options.Basic

/-!
# Reading options

Arguments are read from left to right. A value is attached to its flag by an
equals sign or follows it; a value that follows must not look like a flag, which
a single dash does not. There are no other arguments.

A value that follows its flag is looked at only when the next flag, or the end,
shows that nothing else belongs to it. Two faults are reported in this order.
Absent flags are then looked up in the environment.
-/

namespace MetricIntake

/-! ## Arguments -/

/-- What an argument looks like. -/
inductive Argument where
  /-- What comes after it is no flag. -/
  | separator
  /-- A name after two dashes, and the value after an equals sign. -/
  | long (name : String) (value : Option String)
  /-- A letter after one dash. -/
  | short (letter : Char)
  | word
  deriving DecidableEq, Repr

/-- What an argument looks like, whether or not there is such a flag. -/
def Argument.ofText (s : String) : Argument :=
  match s.toList with
  | ['-', '-'] => .separator
  | '-' :: '-' :: cs =>
    .long (String.ofList (cs.takeWhile (· != '=')))
      (match cs.dropWhile (· != '=') with
        | [] => none
        | _ :: value => some (String.ofList value))
  | '-' :: c :: _ => .short c
  | _ => .word

/-- Flags that take no value and end the reading. -/
def OptionsEnd.ofName? : String → Option OptionsEnd
  | "help" => some .help
  | "version" => some .version
  | _ => none

def OptionsEnd.ofLetter? : Char → Option OptionsEnd
  | 'h' => some .help
  | 'V' => some .version
  | _ => none

/-! ## Left to right -/

/-- What the arguments so far have come to. -/
structure OptionsReading where
  options : Options := {}
  /-- Flags whose values have been set. -/
  given : List Flag := []
  /-- The last flag, and the value that follows it, not yet looked at. -/
  pending : Option (Flag × Option String) := none
  /-- After a separator. -/
  separated : Bool := false
  deriving DecidableEq, Repr

namespace OptionsReading

/-- Sets the option of a flag that was not given before. -/
def give (r : OptionsReading) (flag : Flag) (value : String) :
    Except OptionsEnd OptionsReading :=
  if flag ∈ r.given then .error (.repeated flag)
  else (r.options.set flag value).map fun options =>
    { r with options, given := flag :: r.given }

/-- Looks at the last flag. -/
def settle (r : OptionsReading) : Except OptionsEnd OptionsReading :=
  match r.pending with
  | none => .ok r
  | some (flag, none) => .error (.missingValue flag)
  | some (flag, some value) => { r with pending := none }.give flag value

/-- Ends the reading, unless the last flag has a fault. -/
def endWith (r : OptionsReading) (e : OptionsEnd) : Except OptionsEnd OptionsReading :=
  r.settle.bind fun _ => .error e

/-- Reads an argument that begins with two dashes. -/
def long (r : OptionsReading) (argument name : String) (value : Option String) :
    Except OptionsEnd OptionsReading :=
  match Flag.named? name, value with
  | some flag, some value => r.settle.bind (·.give flag value)
  | some flag, none => r.settle.map fun r => { r with pending := some (flag, none) }
  | none, value =>
    match OptionsEnd.ofName? name, value with
    | some e, none => r.endWith e
    | some _, some _ => .error (.unexpectedValue argument)
    | none, _ => .error (.unknown argument)

/-- Reads one argument. -/
def read (r : OptionsReading) (argument : String) : Except OptionsEnd OptionsReading :=
  if r.separated then .error (.unknown argument)
  else
    match Argument.ofText argument with
    | .separator => .ok { r with separated := true }
    | .long name value => r.long argument name value
    | .short letter =>
      match OptionsEnd.ofLetter? letter with
      | some e => r.endWith e
      | none => .error (.unknown argument)
    | .word =>
      match r.pending with
      | some (flag, none) => .ok { r with pending := some (flag, some argument) }
      | _ => .error (.unknown argument)

/-- Looks up the flags that are absent. -/
def complete (r : OptionsReading) (environment : String → Option String) :
    Except OptionsEnd Options :=
  Flag.all.foldlM
    (fun o flag =>
      if flag ∈ r.given then .ok o
      else
        match environment flag.environmentName with
        | some value => o.set flag value
        | none => .ok o)
    r.options

end OptionsReading

/-- Reads the options from arguments and the environment. -/
def Options.read (arguments : List String) (environment : String → Option String) :
    Except OptionsEnd Options := do
  let r ← arguments.foldlM OptionsReading.read {}
  (← r.settle).complete environment

end MetricIntake
