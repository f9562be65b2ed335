import Workbench.Json.Record
import Workbench.Settings.Basic
import Workbench.Yaml.Printer

/-! # Settings in writing

Settings are a record of four sections. Each section and each field may be left
out and then has its usual value. The same record is read from JSON and from
YAML, so how a value is told from another is a parameter. -/

namespace Workbench

/-- How parts of a written record are read. -/
structure Form (ν : Type) where
  fields? : List String → ν → Option (List (Option ν))
  text? : ν → Option String
  bool? : ν → Option Bool
  natural? : ν → Option Nat
  isNull : ν → Bool

namespace Form

variable {ν : Type}

def json : Form Json :=
  { fields? := Json.fields?
    text? := Json.text?
    bool? := Json.bool?
    natural? := Json.natural?
    isNull := fun
      | .null => true
      | _ => false }

def yaml : Form Yaml.Node :=
  { fields? := Yaml.Node.fields?
    text? := Yaml.Node.text?
    bool? := Yaml.Node.bool?
    natural? := Yaml.Node.natural?
    isNull := Yaml.Node.isNull }

/-- A field with a usual value. -/
def defaulted {α : Type} (value : α) (read : ν → Option α) : Option ν → Option α
  | none => some value
  | some v => read v

/-- A text that may be null. -/
def nullableText (form : Form ν) (v : ν) : Option (Option String) :=
  if form.isNull v then some none else (form.text? v).map some

/-- A section with two fields. -/
def pair {α β : Type} (form : Form ν) (first second : String) (read : Option ν → Option α)
    (readSecond : Option ν → Option β) (v : ν) : Option (α × β) := do
  match ← form.fields? [first, second] v with
  | [a, b] => pure (← read a, ← readSecond b)
  | _ => none

end Form

namespace Settings

def read {ν : Type} (form : Form ν) (v : ν) : Option Settings := do
  let standard := Settings.standard
  match ← form.fields? ["file_service", "autosave", "logging", "session"] v with
  | [service, autosave, logging, session] =>
      let (baseUrl, tokenVariable) ←
        Form.defaulted (standard.baseUrl, standard.tokenVariable)
          (form.pair "base_url" "token_env" (Form.defaulted standard.baseUrl form.text?)
            (Form.defaulted standard.tokenVariable form.text?)) service
      let (enabled, delay) ←
        Form.defaulted (standard.autosave.enabled, standard.autosave.delay)
          (form.pair "enabled" "delay_ms" (Form.defaulted standard.autosave.enabled form.bool?)
            (Form.defaulted standard.autosave.delay form.natural?)) autosave
      let journalFile ←
        Form.defaulted none (fun section_ => do
          match ← form.fields? ["path"] section_ with
          | [path] => Form.defaulted none form.nullableText path
          | _ => none) logging
      let (restoresTabs, snapshotFile) ←
        Form.defaulted (standard.restoresTabs, none)
          (form.pair "restore_tabs" "state_path" (Form.defaulted standard.restoresTabs form.bool?)
            (Form.defaulted none form.nullableText)) session
      pure
        { baseUrl, tokenVariable, autosave := { enabled, delay }, journalFile, restoresTabs,
          snapshotFile }
  | _ => none

def ofJson? (j : Json) : Option Settings := read .json j

/-- The settings in a text. -/
def parse (text : String) : Option Settings := (Yaml.Node.parse text).bind (read .yaml)

/-- A field that is written only if it has a value. -/
def optionalField (name : String) : Option String → List (String × Yaml.Doc)
  | some s => [(name, .text s)]
  | none => []

def sections (s : Settings) : List (String × Yaml.Doc) :=
  [("file_service", .record [("base_url", .text s.baseUrl), ("token_env", .text s.tokenVariable)]),
   ("autosave",
     .record [("enabled", .flag s.autosave.enabled), ("delay_ms", .number s.autosave.delay)]),
   ("logging", .record (optionalField "path" s.journalFile)),
   ("session",
     .record (("restore_tabs", .flag s.restoresTabs) :: optionalField "state_path" s.snapshotFile))]

def toJson (s : Settings) : Json := .record (Yaml.Doc.members s.sections)

def render (s : Settings) : String := Yaml.renderRecord s.sections

end Settings

end Workbench
