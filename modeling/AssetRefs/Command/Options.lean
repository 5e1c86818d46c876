/-! # Command-line options

Options are flags or take a value. Long ones are written `--name` or `--name=value`, and short ones
may share a dash. After `--` there are no options.
-/

namespace AssetRefs

/-- What is wrong with a command line. -/
inductive UsageError where
  | noCommand
  | unknownCommand (name : String)
  | unknownOption (name : String)
  | valueMissing (option : String)
  | valueUnexpected (option : String)
  | argumentMissing (name : String)
  | argumentUnexpected (argument : String)
  | pathMissing (path : String)
  /-- A file was given for a folder or the other way around. -/
  | pathKind (path : String)
  | pathUnreadable (path : String)
deriving DecidableEq, Repr

/-- The wording of a usage error. -/
def UsageError.message : UsageError → String
  | noCommand => "Missing command."
  | unknownCommand name => "No such command '" ++ name ++ "'."
  | unknownOption name => "No such option: " ++ name
  | valueMissing option => "Option '" ++ option ++ "' requires an argument."
  | valueUnexpected option => "Option '" ++ option ++ "' does not take a value."
  | argumentMissing name => "Missing argument '" ++ name ++ "'."
  | argumentUnexpected argument => "Got unexpected extra argument (" ++ argument ++ ")"
  | pathMissing path => "Path '" ++ path ++ "' does not exist."
  | pathKind path => "Path '" ++ path ++ "' is of the wrong kind."
  | pathUnreadable path => "Path '" ++ path ++ "' is not readable."

/-- An option: its name, how it is written, and whether it takes a value. -/
structure OptionForm where
  name : String
  long : List String
  short : List Char := []
  takesValue : Bool := false
deriving DecidableEq, Repr

/-- An option that was given, with its value; a flag has an empty one. -/
structure Given where
  name : String
  value : String
deriving DecidableEq, Repr

/-- The options and the arguments of a command line, each in order. -/
structure ParsedLine where
  options : List Given := []
  arguments : List String := []
deriving DecidableEq, Repr

namespace ParsedLine

/-- Whether an option was given. -/
def has (line : ParsedLine) (name : String) : Bool := line.options.any (·.name == name)

/-- The values of an option in order. -/
def values (line : ParsedLine) (name : String) : List String :=
  (line.options.filter (·.name == name)).map Given.value

/-- The last value of an option. -/
def value? (line : ParsedLine) (name : String) : Option String := (line.values name).getLast?

/-- Adds an option in front. -/
def withOption (line : ParsedLine) (name value : String) : ParsedLine :=
  { line with options := ⟨name, value⟩ :: line.options }

/-- Adds an argument in front. -/
def withArgument (line : ParsedLine) (argument : String) : ParsedLine :=
  { line with arguments := argument :: line.arguments }

end ParsedLine

namespace OptionForm

/-- A long option at the start of a word, and the value written with it. -/
def splitLong (word : List Char) : String × Option String :=
  let name := String.ofList (word.takeWhile (· != '='))
  match word.dropWhile (· != '=') with
  | [] => (name, none)
  | _ :: value => (name, some (String.ofList value))

/-- What the letters after a single dash mean: flags, then perhaps an option that takes a value,
with the value if letters are left for it. -/
def cluster (forms : List OptionForm) :
    List Char → Except UsageError (List String × Option (String × Option String))
  | [] => .ok ([], none)
  | c :: rest =>
    match forms.find? (·.short.contains c) with
    | none => .error (.unknownOption (String.ofList ['-', c]))
    | some form =>
      if form.takesValue then
        .ok ([], some (form.name, if rest.isEmpty then none else some (String.ofList rest)))
      else (cluster forms rest).map fun (flags, last) => (form.name :: flags, last)

/-- The options in one word, and the option whose value is the next word. -/
def word (forms : List OptionForm) (text : String) :
    Except UsageError (List Given × Option String) :=
  let (name, value) := splitLong text.toList
  match forms.find? (·.long.contains name) with
  | some form =>
    match form.takesValue, value with
    | true, some value => .ok ([⟨form.name, value⟩], none)
    | true, none => .ok ([], some form.name)
    | false, some _ => .error (.valueUnexpected name)
    | false, none => .ok ([⟨form.name, ""⟩], none)
  | none =>
    match text.toList with
    | '-' :: '-' :: _ => .error (.unknownOption name)
    | letters =>
      (cluster forms letters.tail).map fun (flags, last) =>
        let flags := flags.map fun flag => Given.mk flag ""
        match last with
        | none => (flags, none)
        | some (name, some value) => (flags ++ [⟨name, value⟩], none)
        | some (name, none) => (flags, some name)

/-- Whether a word is an option. -/
def isOption (text : String) : Bool :=
  match text.toList with
  | '-' :: _ :: _ => true
  | _ => false

/-- Reads a command line. If `mixed`, options may come after arguments; otherwise all words from the
first argument on are arguments. -/
def parse (forms : List OptionForm) (mixed : Bool) : List String → Except UsageError ParsedLine
  | [] => .ok {}
  | text :: rest =>
    if text = "--" then .ok { arguments := rest }
    else if isOption text then
      match word forms text, rest with
      | .error error, _ => .error error
      | .ok (given, none), rest =>
        (parse forms mixed rest).map fun line => { line with options := given ++ line.options }
      | .ok (_, some name), [] => .error (.valueMissing name)
      | .ok (given, some name), value :: rest =>
        (parse forms mixed rest).map fun line =>
          { line with options := given ++ ⟨name, value⟩ :: line.options }
    else if mixed then (parse forms mixed rest).map (·.withArgument text)
    else .ok { arguments := text :: rest }

end OptionForm

end AssetRefs
