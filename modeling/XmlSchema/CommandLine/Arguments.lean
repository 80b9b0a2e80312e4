import XmlSchema.Namespace

/-!
# Command lines

A command line names a command, its options and the schema on which it works. Options come before or
after the schema, short ones can be joined behind one hyphen, and a double hyphen ends them. An
option is given at most once, except for the one that asks for more messages. `Request.ofArguments`
reads the arguments from left to right and stops at the first that asks for help or is wrong.
-/

namespace XmlSchema.CommandLine

/-- A command that works on a schema. -/
inductive Command where
  | inspect
  | check
deriving DecidableEq

/-- An option without a value. -/
inductive Switch where
  | elements
  | types
  | strict
  | json
  | denyWarnings
deriving DecidableEq

def Command.longSwitch? : Command → String → Option Switch
  | .inspect, "elements" => some .elements
  | .inspect, "types" => some .types
  | .inspect, "strict" => some .strict
  | .inspect, "json" => some .json
  | .check, "strict" => some .strict
  | .check, "deny-warnings" => some .denyWarnings
  | _, _ => none

def Command.shortSwitch? : Command → Char → Option Switch
  | .inspect, 'j' => some .json
  | _, _ => none

def Command.takesElement : Command → Bool
  | .inspect => true
  | .check => false

/-- What to inspect and how to show it. -/
structure Inspection where
  schema : String
  element? : Option String
  elements : Bool
  types : Bool
  strict : Bool
  json : Bool
deriving DecidableEq

/-- What to check and how strictly. -/
structure Checking where
  schema : String
  strict : Bool
  denyWarnings : Bool
deriving DecidableEq

/-- What a command line asks for. -/
inductive Request where
  | help
  | version
  | inspect (inspection : Inspection)
  | check (checking : Checking)
  /-- A command line that makes no sense. -/
  | misuse
deriving DecidableEq

/-- The arguments of a command read so far. -/
structure Given where
  switches : List Switch
  element? : Option String
  schema? : Option String
  /-- Whether the last option still needs its value. -/
  awaitsElement : Bool
  optionsEnded : Bool
deriving DecidableEq

namespace Given

def nothing : Given := ⟨[], none, none, false, false⟩

/-- Sets a switch, once. -/
def set (given : Given) (switch : Switch) : Except Request Given :=
  if switch ∈ given.switches then .error .misuse
  else .ok { given with switches := switch :: given.switches }

/-- Names the schema, once and not with an empty name. -/
def addSchema (given : Given) (schema : String) : Except Request Given :=
  if given.schema?.isSome || schema = "" then .error .misuse
  else .ok { given with schema? := some schema }

/-- Names the element, once; without a name the next argument has to be one. -/
def addElement (given : Given) (name? : Option String) : Except Request Given :=
  if given.element?.isSome || given.awaitsElement then .error .misuse
  else .ok { given with element? := name?, awaitsElement := name?.isNone }

/-- Takes a long option: its name, and the value behind an equals sign if there is one. -/
def takeLong (command : Command) (given : Given) (name : String) (value? : Option String) :
    Except Request Given :=
  if command.takesElement && name = "element" then given.addElement value?
  else
    match value?, command.longSwitch? name with
    | none, some switch => given.set switch
    | none, none =>
        if name = "help" then .error .help
        else if name = "verbose" then .ok given
        else .error .misuse
    | some _, _ => .error .misuse

/-- Takes short options that are joined. What follows the option for an element is its value, with
or without an equals sign before it. -/
def takeShort (command : Command) (given : Given) : List Char → Except Request Given
  | [] => .ok given
  | 'v' :: rest => given.takeShort command rest
  | 'h' :: _ => .error .help
  | letter :: rest =>
      if command.takesElement && letter = 'e' then
        match rest with
        | [] => given.addElement none
        | '=' :: name => given.addElement (some (String.ofList name))
        | name => given.addElement (some (String.ofList name))
      else
        match command.shortSwitch? letter with
        | some switch =>
            match given.set switch with
            | .ok given => given.takeShort command rest
            | .error request => .error request
        | none => .error .misuse

end Given

/-- An argument by its form. -/
inductive Form where
  | endOfOptions
  | long (name : String) (value? : Option String)
  | short (letters : List Char)
  | plain (text : String)
deriving DecidableEq

def Form.ofArgument (argument : String) : Form :=
  match argument.toList with
  | ['-', '-'] => .endOfOptions
  | '-' :: '-' :: characters =>
      let value? :=
        match characters.dropWhile (· != '=') with
        | _ :: value => some (String.ofList value)
        | [] => none
      .long (String.ofList (characters.takeWhile (· != '='))) value?
  | '-' :: letter :: letters => .short (letter :: letters)
  | _ => .plain argument

def Given.take (command : Command) (given : Given) (argument : String) : Except Request Given :=
  if given.optionsEnded then given.addSchema argument
  else
    match Form.ofArgument argument with
    | .endOfOptions => .ok { given with optionsEnded := true }
    | .long name value? =>
        if given.awaitsElement then .error .misuse else given.takeLong command name value?
    | .short letters =>
        if given.awaitsElement then .error .misuse else given.takeShort command letters
    | .plain text =>
        if given.awaitsElement then .ok { given with element? := some text, awaitsElement := false }
        else given.addSchema text

/-- What the arguments of a command ask for, all of them read. -/
def Given.request (command : Command) (given : Given) : Request :=
  match given.schema?, given.awaitsElement with
  | some schema, false =>
      let isSet (switch : Switch) : Bool := switch ∈ given.switches
      match command with
      | .inspect =>
          .inspect
            { schema
              element? := given.element?
              elements := isSet .elements
              types := isSet .types
              strict := isSet .strict
              json := isSet .json }
      | .check => .check ⟨schema, isSet .strict, isSet .denyWarnings⟩
  | _, _ => .misuse

def Command.request (command : Command) (arguments : List String) : Request :=
  match arguments.foldlM (Given.take command) .nothing with
  | .ok given => given.request command
  | .error request => request

namespace Request

/-- What joined short options before the command ask for, if they ask for anything but more
messages. -/
def ofShort? : List Char → Option Request
  | [] => none
  | 'v' :: rest => ofShort? rest
  | 'h' :: _ => some .help
  | 'V' :: _ => some .version
  | _ => some .misuse

/-- What the arguments after the command for help ask for. -/
def ofHelpArguments : List String → Request
  | [] => .help
  | [topic] => if topic ∈ ["inspect", "check", "help"] then .help else .misuse
  | _ => .misuse

def ofArguments : List String → Request
  | [] => .misuse
  | argument :: rest =>
      match Form.ofArgument argument with
      | .plain "inspect" => Command.inspect.request rest
      | .plain "check" => Command.check.request rest
      | .plain "help" => ofHelpArguments rest
      | .long "verbose" none => ofArguments rest
      | .long "help" none => .help
      | .long "version" none => .version
      | .short letters => (ofShort? letters).getD (ofArguments rest)
      | _ => .misuse

def schema? : Request → Option String
  | .inspect inspection => some inspection.schema
  | .check checking => some checking.schema
  | _ => none

end Request

end XmlSchema.CommandLine
