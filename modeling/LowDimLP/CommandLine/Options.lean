/-!
# Options

The arguments of a command are options that each take a value: `--name value` or `--name=value`. A value
that stands by itself must not look like an option, unless the option takes any value. Arguments are read in
order, and each option is put into the record of its command as it is read, so the first fault ends the
reading, and a request for help does when it is reached.
-/

namespace LowDimLP

namespace CommandLine

/-- An option that fills a part of a record. -/
structure Field (σ : Type) where
  name : String
  /-- May a value that stands by itself start with a hyphen? -/
  takesAnything : Bool
  /-- The record with the value put in; none if it is no value of the option, or the option is given already. -/
  put : String → σ → Option σ

/-- What arguments amount to. -/
inductive Reading (σ : Type) where
  | options (record : σ)
  | help
  | misuse

/-- The name of a long option, and the value that is joined to it. -/
def longOption? (arg : String) : Option (String × Option String) :=
  match arg.toList with
  | '-' :: '-' :: text =>
    some (String.ofList (text.takeWhile (· ≠ '=')),
      match text.dropWhile (· ≠ '=') with
      | [] => none
      | _ :: value => some (String.ofList value))
  | _ => none

/-- Does the argument ask for help by letter? What follows the letter is not looked at. -/
def isHelpLetter (arg : String) : Bool :=
  match arg.toList with
  | '-' :: 'h' :: _ => true
  | _ => false

/-- Does the argument look like an option, and not like a value? A lone hyphen is a value. -/
def looksLikeOption (arg : String) : Bool :=
  match arg.toList with
  | '-' :: _ :: _ => true
  | _ => false

variable {σ : Type}

/-- Reads arguments into a record. -/
def read (fields : List (Field σ)) : σ → List String → Reading σ
  | record, [] => .options record
  | record, arg :: rest =>
    if arg = "--" then if rest.isEmpty then .options record else .misuse
    else
      match longOption? arg with
      | none => if isHelpLetter arg then .help else .misuse
      | some (name, joined) =>
        if name = "help" then if joined.isNone then .help else .misuse
        else
          match fields.find? (·.name == name), joined, rest with
          | some field, some value, rest =>
            match field.put value record with
            | some record => read fields record rest
            | none => .misuse
          | some field, none, value :: rest =>
            if looksLikeOption value && !field.takesAnything then .misuse
            else
              match field.put value record with
              | some record => read fields record rest
              | none => .misuse
          | _, _, _ => .misuse

/-- Puts a value where there is none yet. -/
def once {β : Type} (given : Option β) (value : Option β) : Option (Option β) :=
  match given, value with
  | none, some value => some (some value)
  | _, _ => none

end CommandLine

end LowDimLP
