import Worksite.CommandLine.Arguments

/-!
Help: the verbs, places and flags of a command line, in columns.
-/
namespace Worksite.CommandLine

def Slot.shown (s : Slot) : String :=
  (if s.required then "<" ++ s.name ++ ">" else "[" ++ s.name ++ "]") ++
    if s.many then "..." else ""

def Takes.shown : Takes → String
  | .often => "..."
  | .text name | .texts name | .path name | .number name => " <" ++ name ++ ">"
  | _ => ""

def Flag.shown (f : Flag) : String :=
  (match f.short with
    | some c => "-" ++ c.toString ++ ", "
    | none => "    ") ++ "--" ++ f.long ++ f.takes.shown

/-- What is said of a flag, with its default. -/
def Flag.remark (f : Flag) : String :=
  match f.default with
  | none => f.help
  | some value => (if f.help = "" then "" else f.help ++ " ") ++ "[default: " ++ value ++ "]"

/-- Two columns under a heading; nothing without rows. -/
def columns (heading : String) (rows : List (String × String)) : String :=
  if rows.isEmpty then ""
  else
    let width := rows.foldl (fun w row => max w row.1.length) 2
    let line (row : String × String) : String :=
      "  " ++ row.1 ++ String.ofList (List.replicate (width + 2 - row.1.length) ' ') ++ row.2
    "\n\n" ++ heading ++ ":\n" ++ "\n".intercalate (rows.map line)

def usage (name : String) (flags : List Flag) (places : List String) : String :=
  let plain := flags.all fun f => f.takes = .help || f.takes = .version
  " ".intercalate (["Usage:", name] ++ (if plain then [] else ["[OPTIONS]"]) ++ places)

def help (about name : String) (verbs : List (String × String)) (slots : List Slot)
    (flags : List Flag) : String :=
  let places := if verbs.isEmpty then slots.map Slot.shown else ["<COMMAND>"]
  about ++ "\n\n" ++ usage name flags places ++ columns "Commands" verbs ++
    columns "Arguments" (slots.map fun s => (s.shown, s.help)) ++
    columns "Options" (flags.map fun f => (f.shown, f.remark)) ++ "\n"

end Worksite.CommandLine
