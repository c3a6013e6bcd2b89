import Worksite.Path

/-!
Languages of files, told by their extensions. A language has a tag, and a way to find symbols
and dependencies in its text.
-/
namespace Worksite

inductive Language where
  | python
  | javaScript
  | typeScript
  | go
  | rust
  | java
  | c
  | cpp
  | cSharp
  | ruby
  | php
  | kotlin
  | swift
  | shell
  | markdown
  | json
  | yaml
  | toml
  | html
  | css
  | text
  | other (tag : String)
  deriving DecidableEq, Repr

/-- How the text of a language is searched: by its grammar, by the form of lines, or not at all. -/
inductive Extraction where
  | parsed
  | pattern
  | unsupported
  deriving DecidableEq, Repr

def Extraction.tag : Extraction → String
  | .parsed => "parsed"
  | .pattern => "pattern"
  | .unsupported => "unsupported"

/-- Lower case of the letters A to Z. -/
def asciiLower (s : String) : String := String.ofList (s.toList.map Char.toLower)

namespace Language

def ofLowerExtension : String → Language
  | "py" | "pyi" => python
  | "js" | "jsx" | "mjs" | "cjs" => javaScript
  | "ts" | "tsx" | "mts" | "cts" => typeScript
  | "go" => go
  | "rs" => rust
  | "java" => java
  | "c" | "h" => c
  | "cc" | "cpp" | "cxx" | "hpp" | "hh" | "hxx" => cpp
  | "cs" => cSharp
  | "rb" => ruby
  | "php" => php
  | "kt" | "kts" => kotlin
  | "swift" => swift
  | "sh" | "bash" | "zsh" => shell
  | "md" | "markdown" => markdown
  | "json" => json
  | "yaml" | "yml" => yaml
  | "toml" => toml
  | "html" | "htm" => html
  | "css" | "scss" => css
  | "" => text
  | e => other e

def ofExtension (e : String) : Language := ofLowerExtension (asciiLower e)

/-- The language of a path; a name without an extension is plain text. -/
def classify (path : String) : Language :=
  match Path.extension? path with
  | some e => ofExtension e
  | none => text

def ofTag : String → Language
  | "python" => python
  | "javascript" => javaScript
  | "typescript" => typeScript
  | "go" => go
  | "rust" => rust
  | "java" => java
  | "c" => c
  | "cpp" => cpp
  | "csharp" => cSharp
  | "ruby" => ruby
  | "php" => php
  | "kotlin" => kotlin
  | "swift" => swift
  | "shell" => shell
  | "markdown" => markdown
  | "json" => json
  | "yaml" => yaml
  | "toml" => toml
  | "html" => html
  | "css" => css
  | "text" => text
  | t => other (asciiLower t)

def tag : Language → String
  | python => "python"
  | javaScript => "javascript"
  | typeScript => "typescript"
  | go => "go"
  | rust => "rust"
  | java => "java"
  | c => "c"
  | cpp => "cpp"
  | cSharp => "csharp"
  | ruby => "ruby"
  | php => "php"
  | kotlin => "kotlin"
  | swift => "swift"
  | shell => "shell"
  | markdown => "markdown"
  | json => "json"
  | yaml => "yaml"
  | toml => "toml"
  | html => "html"
  | css => "css"
  | text => "text"
  | other t => t

def extraction : Language → Extraction
  | python => .parsed
  | javaScript | typeScript => .pattern
  | _ => .unsupported

def isOther : Language → Bool
  | other _ => true
  | _ => false

end Language

end Worksite
