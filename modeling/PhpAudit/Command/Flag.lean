import PhpAudit.Number.Integer
import PhpAudit.Risk

/-!
# Flags of a command line

The flags of a command line come before its operands. A flag starts with one or two dashes and has a
name; its value stands after an equals sign or is the next argument. A **switch** takes a value only
after an equals sign, and is on without one. The first argument that is no flag, or two dashes alone,
ends the flags. The first flag that is wrong ends the reading.
-/

namespace PhpAudit.Command

/-- Why the value of a flag is refused. -/
inductive ValueFault where
  | malformed
  | outOfRange
  | unknownRisk (e : UnknownRisk)
deriving DecidableEq, Repr

/-- The wording of a refused value. -/
def ValueFault.message : ValueFault → Text
  | .malformed => "parse error"
  | .outOfRange => "value out of range"
  | .unknownRisk e => e.message

/-- **A flag** that sets a value of a record of options. -/
structure Flag (σ : Type) where
  name : Text
  about : Text
  /-- The value without the flag, as text. -/
  initial : Text
  isSwitch : Bool
  set : Text → σ → Except ValueFault σ

namespace Flag

variable {σ : Type}

/-- The spellings of truth values. -/
def truths : List (Text × Bool) := [
  ("1", true), ("t", true), ("T", true), ("true", true), ("TRUE", true), ("True", true),
  ("0", false), ("f", false), ("F", false), ("false", false), ("FALSE", false), ("False", false)]

/-- A switch, off at first. -/
def switch (name about : Text) (set : Bool → σ → σ) : Flag σ :=
  ⟨name, about, "false", true, fun v s =>
    match truths.lookup v with
    | some b => .ok (set b s)
    | none => .error .malformed⟩

/-- A flag with a text, empty at first. -/
def text (name about : Text) (set : Text → σ → σ) : Flag σ :=
  ⟨name, about, "", false, fun v s => .ok (set v s)⟩

/-- A flag with an integer, zero at first. -/
def integer (name about : Text) (set : Int → σ → σ) : Flag σ :=
  ⟨name, about, "0", false, fun v s =>
    match Integer.parse v with
    | .ok n => .ok (set n s)
    | .error .malformed => .error .malformed
    | .error .outOfRange => .error .outOfRange⟩

/-- The texts of a flag that can be given again and again. -/
def listText (values : List Text) : Text := "[" ++ Text.intercalate " " values ++ "]"

/-- A flag with texts, none at first. -/
def texts (name about : Text) (add : Text → σ → σ) : Flag σ :=
  ⟨name, about, listText [], false, fun v s => .ok (add v s)⟩

/-- **Adds the name of a risk** to those given before, as it is spelled. -/
def addRisk (names : List Text) (value : Text) : Except ValueFault (List Text) :=
  match Risk.parse? value with
  | .ok _ => .ok (names ++ [value])
  | .error e => .error (.unknownRisk e)

/-- A flag with names of risks, none at first. -/
def risks (name about : Text) (get : σ → List Text) (set : List Text → σ → σ) : Flag σ :=
  ⟨name, about, listText [], false, fun v s => (addRisk (get s) v).map (set · s)⟩

end Flag

/-- **What an argument is.** -/
inductive Argument where
  | operand
  /-- Two dashes alone. -/
  | stop
  | malformed
  | flag (name : Text) (value : Option Text)
deriving DecidableEq, Repr

namespace Argument

/-- The byte of a dash. -/
def dash : UInt8 := Text.mark '-'

/-- The byte of an equals sign. -/
def equals : UInt8 := Text.mark '='

/-- A flag, from what stands after its dashes. The first byte is part of the name. -/
def named : List UInt8 → Argument
  | [] => .malformed
  | b :: bs =>
    if b = dash ∨ b = equals then .malformed
    else .flag ⟨b :: bs.takeWhile (· ≠ equals)⟩
      (match bs.dropWhile (· ≠ equals) with
        | [] => none
        | _ :: value => some ⟨value⟩)

/-- What an argument is, by its spelling. -/
def of (arg : Text) : Argument :=
  match arg.bytes with
  | a :: b :: bs =>
    if a ≠ dash then .operand
    else if b ≠ dash then named (b :: bs)
    else if bs.isEmpty then .stop
    else named bs
  | _ => .operand

end Argument

/-- **Why flags are refused**, or that help is asked for. -/
inductive FlagError where
  | help
  | malformed (arg : Text)
  | undefined (name : Text)
  | noValue (name : Text)
  | badSwitch (name value : Text) (fault : ValueFault)
  | badValue (name value : Text) (fault : ValueFault)
deriving DecidableEq, Repr

/-- The line about refused flags; there is none when help is asked for. -/
def FlagError.line : FlagError → Text
  | .help => ""
  | .malformed arg => "bad flag syntax: " ++ arg ++ "\n"
  | .undefined name => "flag provided but not defined: -" ++ name ++ "\n"
  | .noValue name => "flag needs an argument: -" ++ name ++ "\n"
  | .badSwitch name value fault =>
    "invalid boolean value " ++ Text.quoted value ++ " for -" ++ name ++ ": " ++
      fault.message ++ "\n"
  | .badValue name value fault =>
    "invalid value " ++ Text.quoted value ++ " for flag -" ++ name ++ ": " ++
      fault.message ++ "\n"

namespace Flag

variable {σ : Type}

/-- The names that ask for help, unless a flag has them. -/
def helpNames : List Text := ["help", "h"]

/-- Why a name that no flag has is refused. -/
def unknown (name : Text) : FlagError := if name ∈ helpNames then .help else .undefined name

/-- Sets a flag to a value. -/
def assign (f : Flag σ) (value : Text) (s : σ) : Except FlagError σ :=
  match f.set value s with
  | .ok s => .ok s
  | .error fault =>
    .error (if f.isSwitch then .badSwitch f.name value fault else .badValue f.name value fault)

/-- **Reads the flags of a command line**, and gives the operands that follow them. -/
def parse (flags : List (Flag σ)) : List Text → σ → Except FlagError (σ × List Text)
  | [], s => .ok (s, [])
  | arg :: args, s =>
    match Argument.of arg with
    | .operand => .ok (s, arg :: args)
    | .stop => .ok (s, args)
    | .malformed => .error (.malformed arg)
    | .flag name value =>
      match flags.find? (·.name == name) with
      | none => .error (unknown name)
      | some f =>
        if f.isSwitch then do parse flags args (← f.assign (value.getD "true") s)
        else match value, args with
          | some v, args => do parse flags args (← f.assign v s)
          | none, v :: rest => do parse flags rest (← f.assign v s)
          | none, [] => .error (.noValue name)
termination_by args => args.length

/-- The line about a flag. -/
def line (f : Flag σ) : Text :=
  "  " ++ f.name ++ ": " ++ f.about ++ " (default: " ++ Text.quoted f.initial ++ ")\n"

/-- The lines about some flags, by name. -/
def lines (flags : List (Flag σ)) : Text :=
  Text.join ((flags.mergeSort fun f g => decide (f.name ≤ g.name)).map line)

end Flag

end PhpAudit.Command
