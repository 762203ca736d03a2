/-
  SHAPES — how settings and the expansion state are read from document nodes.

  The shapes are written once and read every format through its dialect.  The field names are the
  ones that `CommandLauncher.Settings.Encoding` writes.
-/
import CommandLauncher.Document.Record
import CommandLauncher.Settings

namespace CommandLauncher

open Document

variable {α : Type}

/-- A variable: only the name is required. -/
def Variable.shape (d : Dialect α) : RecordShape α Variable where
  title := "struct VariableDefinition"
  blank := { name := "" }
  fields := [
    { name := "name", required := true,
      read := fun r p n v => do return { v with name := ← d.readText r p n } },
    { name := "value", required := false,
      read := fun r p n v => do return { v with value := ← d.readText r p n } },
    { name := "description", required := false,
      read := fun r p n v => do
        return { v with description := ← d.readOptional d.readText r p n } },
    { name := "options", required := false,
      read := fun r p n v => do
        return { v with options := ← d.readOptional (d.readList d.readText) r p n } }]

/-- A command: title and text are required. -/
def Command.shape (d : Dialect α) : RecordShape α Command where
  title := "struct CommandDefinition"
  blank := { title := "", command := "" }
  fields := [
    { name := "title", required := true,
      read := fun r p n c => do return { c with title := ← d.readText r p n } },
    { name := "command", required := true,
      read := fun r p n c => do return { c with command := ← d.readText r p n } },
    { name := "group", required := false,
      read := fun r p n c => do return { c with group := ← d.readOptional d.readText r p n } },
    { name := "description", required := false,
      read := fun r p n c => do
        return { c with description := ← d.readOptional d.readText r p n } },
    { name := "icon", required := false,
      read := fun r p n c => do return { c with icon := ← d.readOptional d.readText r p n } },
    { name := "iconColor", required := false,
      read := fun r p n c => do
        return { c with iconColor := ← d.readOptional d.readText r p n } },
    { name := "sendNewLine", required := false,
      read := fun r p n c => do
        return { c with sendNewLine := ← d.readOptional d.readFlag r p n } }]

/-- The settings document: nothing is required. -/
def Settings.shape (d : Dialect α) : RecordShape α Settings where
  title := "struct Settings"
  blank := {}
  fields := [
    { name := "sortOrder", required := false,
      read := fun r p n s => do
        return { s with
          sortOrder := ← d.readWord (SortOrder.all.map SortOrder.name) SortOrder.ofName? r p n } },
    { name := "commandIconColor", required := false,
      read := fun r p n s => do return { s with commandIconColor := ← d.readText r p n } },
    { name := "sendNewLine", required := false,
      read := fun r p n s => do
        return { s with sendNewLine := ← d.readOptional d.readFlag r p n } },
    { name := "shell", required := false,
      read := fun r p n s => do return { s with shell := ← d.readOptional d.readText r p n } },
    { name := "variables", required := false,
      read := fun r p n s => do
        return { s with vars := ← d.readList ((Variable.shape d).read d) r p n } },
    { name := "commands", required := false,
      read := fun r p n s => do
        return { s with commands := ← d.readList ((Command.shape d).read d) r p n } }]

/-- The expansion state: the list of the paths that are expanded. -/
def expansionShape (d : Dialect α) : RecordShape α (List String) where
  title := "struct ExpandedState"
  blank := []
  fields := [
    { name := "expanded", required := false,
      read := fun r p n _ => d.readList d.readText r p n }]

end CommandLauncher
