/-
The registry of file extensions: which dialect a file is written in, going
by its extension. Extensions are kept in lower case.

A registry keeps two tables, the dialect of each extension and the
extensions of each dialect. An extension that is registered again for
another dialect moves in the first table and stays in the second, so
taking the former dialect out takes the extension with it.
-/
import Marginalia.Dialect.Basic
import Marginalia.Path
import Marginalia.Text.Lines
import Marginalia.Value.Shown
import Marginalia.Yaml.Reader

namespace Marginalia

/-- Which extensions belong to which dialect. -/
structure Registry where
  /-- The dialect of an extension. -/
  owners : List (String × Dialect) := []
  /-- The extensions given to a dialect. -/
  given : List (Dialect × List String) := []
  deriving DecidableEq, Repr, Inhabited

/-- Why a registry could not answer or be read. -/
inductive RegistryError where
  | unknownDialect (name : String)
  | unregistered (suffix : String)
  /-- A document that is not well-formed. -/
  | unreadable
  /-- A document that holds something that is no value. -/
  | unusable (error : ReadError)
  /-- A name or an extension with a number of too many digits in it. -/
  | unwritable
  /-- A document that is no mapping. -/
  | notMapping (value : Value)
  deriving Repr

/-- The name of the kind of a value in messages. -/
def Value.kindName : Value → String
  | null => "NoneType"
  | bool _ => "bool"
  | int _ => "int"
  | float _ => "float"
  | str _ => "str"
  | bytes _ => "bytes"
  | date _ => "datetime.date"
  | moment _ => "datetime.datetime"
  | list _ => "list"
  | map _ => "dict"
  | set _ => "set"
  | pair .. => "tuple"

/-- What is said of such an error. -/
def RegistryError.message : RegistryError → String
  | unknownDialect name => Dialect.unknownMessage name
  | unregistered suffix =>
    "No dialect registered for extension '" ++ suffix ++ "'"
  | unreadable => "Invalid YAML in extensions config"
  | unusable error => error.message
  | unwritable => Text.tooManyDigitsMessage none
  | notMapping value =>
    "Invalid extensions config format: expected dict, got <class '"
      ++ value.kindName ++ "'>"

namespace Registry

-- ============================================================ lookup

/-- The dialect of an extension, in any letter case. -/
def detect (registry : Registry) (extension : String) : Option Dialect :=
  registry.owners.lookup (Text.toLower extension)

/-- The dialect of a file, by the suffix of its path. -/
def detectPath (registry : Registry) (path : String) :
    Except RegistryError Dialect :=
  match registry.detect (Path.suffix path) with
  | some dialect => .ok dialect
  | none => .error (.unregistered (Path.suffix path))

/-- The extensions given to a dialect. -/
def extensions (registry : Registry) (dialect : Dialect) : List String :=
  (registry.given.lookup dialect).getD []

/-- All extensions that have a dialect. -/
def allExtensions (registry : Registry) : List String :=
  registry.owners.map (·.1)

/-- Whether an extension has a dialect. -/
def supports (registry : Registry) (extension : String) : Bool :=
  (registry.detect extension).isSome

-- =========================================================== changes

/-- The entries with the key's value set. -/
def setEntry {α β : Type} [BEq α] (key : α) (value : β) :
    List (α × β) → List (α × β)
  | [] => [(key, value)]
  | (k, v) :: entries =>
    if k == key then (key, value) :: entries
    else (k, v) :: setEntry key value entries

/-- Gives an extension to a dialect. -/
def add (registry : Registry) (dialect : Dialect) (extension : String) :
    Registry :=
  let extension := Text.toLower extension
  let known := registry.extensions dialect
  { owners := setEntry extension dialect registry.owners
    given :=
      setEntry dialect
        (if known.contains extension then known else known ++ [extension])
        registry.given }

/-- Gives extensions to a dialect. -/
def register (registry : Registry) (dialect : Dialect)
    (extensions : List String) : Registry :=
  extensions.foldl (·.add dialect ·) registry

/-- Takes out a dialect and every extension that was given to it. -/
def unregister (registry : Registry) (dialect : Dialect) : Registry :=
  { owners := registry.owners.filter fun (e, _) =>
      !(registry.extensions dialect).contains e
    given := registry.given.filter (·.1 != dialect) }

/-- The dialect of a name, for a change. -/
def named (name : String) : Except RegistryError Dialect :=
  match Dialect.ofName? name with
  | some dialect => .ok dialect
  | none => .error (.unknownDialect name)

-- ========================================================= documents

/-- Takes up one entry of a document: a dialect's name and a list of
extensions. Anything else is passed over. -/
def addEntry (registry : Registry) : Value × Value → Registry
  | (name, .list extensions) =>
    match Dialect.ofName? name.plain with
    | some dialect => registry.register dialect (extensions.map Value.plain)
    | none => registry
  | _ => registry

/-- Whether an entry of a document is in texts: its name, and the extensions
where there is a list of a dialect's. -/
def entryInTexts : Value × Value → Bool
  | (name, .list extensions) =>
    name.isWritable
      && ((Dialect.ofName? name.plain).isNone
        || extensions.all Value.isWritable)
  | (name, _) => name.isWritable

/-- The registry of a document, by what reads documents; nothing written is an
empty registry. -/
def ofTextBy (read : DocumentReader) (text : List Char) :
    Except RegistryError Registry :=
  match read (Text.unifyBreaks text) with
  | .error .malformed => .error .unreadable
  | .error error => .error (.unusable error)
  | .ok .null => .ok {}
  | .ok (.map entries) =>
    if entries.all entryInTexts then .ok (entries.foldl addEntry {})
    else .error .unwritable
  | .ok value => .error (.notMapping value)

/-- The registry of a document in YAML. -/
def ofText (text : List Char) : Except RegistryError Registry :=
  ofTextBy Yaml.read text

/-- The extensions that are known from the start. -/
def standard : Registry :=
  [(Dialect.c, [".c", ".h"]),
   (.cpp, [".cc", ".cpp", ".cxx", ".hh", ".hpp", ".hxx"]),
   (.csharp, [".cs"]),
   (.java, [".java"]),
   (.javascript, [".js", ".jsx", ".mjs", ".cjs"]),
   (.typescript, [".ts", ".tsx", ".mts", ".cts"]),
   (.kotlin, [".kt", ".kts"]),
   (.rust, [".rs"])].foldl
     (fun registry (dialect, exts) => registry.register dialect exts) {}

end Registry

end Marginalia
