/-
The dialects: C-family languages that differ in their comment markers,
literals and declaration keywords. A dialect is named by a lower-case
word, and names are read without regard to case.
-/
import Marginalia.Text.Case

namespace Marginalia

/-- The supported dialects. -/
inductive Dialect where
  | c
  | cpp
  | csharp
  | java
  | javascript
  | typescript
  | kotlin
  | rust
  deriving DecidableEq, Repr, Inhabited

namespace Dialect

/-- Every dialect, in the order in which they are listed to the user. -/
def all : List Dialect :=
  [c, cpp, csharp, java, javascript, typescript, kotlin, rust]

/-- The name of a dialect. -/
def name : Dialect → String
  | c => "c"
  | cpp => "cpp"
  | csharp => "csharp"
  | java => "java"
  | javascript => "javascript"
  | typescript => "typescript"
  | kotlin => "kotlin"
  | rust => "rust"

/-- The dialect of a name, in any letter case. -/
def ofName? (name : String) : Option Dialect :=
  all.find? fun d => d.name == Text.toLower name

/-- What is said of a name that no dialect has. -/
def unknownMessage (name : String) : String :=
  "Unknown dialect '" ++ name ++ "'. Supported dialects: "
    ++ ", ".intercalate (all.map Dialect.name)

end Dialect

end Marginalia
