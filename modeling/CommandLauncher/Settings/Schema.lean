/-
  SETTINGS SCHEMA — the published description of the settings document.

  What the schema accepts is what the loader reads: the fields and their kinds are those of
  `CommandLauncher.Settings.Shape`, and an optional field may also be given as null.
-/
import CommandLauncher.Document.Schema
import CommandLauncher.Settings.Shape

namespace CommandLauncher

open Document

/-- A text that may be missing. -/
def optionalText : Schema := .ofKind [.string, .null]

/-- A flag that may be missing. -/
def optionalFlag : Schema := .ofKind [.boolean, .null]

/-- The schema of a command. -/
def Command.schema : Schema :=
  .described
    ("A shell command template shown in the command tree.\n\n`title` is the identity used by " ++
      "edit and remove; `command` may contain `$\x7bname\x7d` tokens.")
    (.record
      [("command", .described "Command text, may reference variables as `$\x7bname\x7d`"
          (.ofKind [.string])),
        ("description", optionalText),
        ("group", .described "Slash separated group path, e.g. `Ops/Deploy`" optionalText),
        ("icon", optionalText),
        ("iconColor",
          .described
            "Theme color id overriding `commandIconColor`, e.g. `terminal.ansiGreen`"
            optionalText),
        ("sendNewLine",
          .described
            ("Press enter after sending the command (defaults to the global setting, then " ++
              "`true`)")
            optionalFlag),
        ("title", .described "Display name, unique within the settings file"
          (.ofKind [.string]))]
      ["title", "command"])

/-- The schema of an order. -/
def SortOrder.schema : Schema :=
  .described "How sibling items are ordered when displayed"
    (.oneOf
      [.described "Keep the order items are declared in the settings file"
          (.word SortOrder.settings.name),
        .described "Sort by name, case-insensitive first" (.word SortOrder.alphabetical.name)])

/-- The schema of a variable. -/
def Variable.schema : Schema :=
  .described "A named value that can be referenced from command text as `$\x7bname\x7d`"
    (.record
      [("description", optionalText),
        ("name", .described "Identifier, letters, digits, `_` and `-` only" (.ofKind [.string])),
        ("options", .described "Choices offered when the variable is used"
          (.listOf (.ofKind [.string]) [.null])),
        ("value", .described "Fixed value, or the default choice of a selectable variable"
          (.withDefault (.text "") (.ofKind [.string])))]
      ["name"])

/-- The schema of the settings document. -/
def Settings.schema : DocumentSchema where
  title := "Settings"
  description := "Root of the settings document"
  body :=
    .record
      [("commandIconColor",
          .described "Theme color applied to command entries, e.g. `terminal.ansiCyan`"
            (.ofKind [.string])),
        ("commands", .withDefault (.list []) (.listOf (.reference "CommandDefinition") [])),
        ("sendNewLine",
          .described "Default for commands that don't set `sendNewLine`" (.ofKind [.boolean, .null])),
        ("shell",
          .described "Shell used to run commands (defaults to `$SHELL`, then `/bin/sh`)"
            (.ofKind [.string, .null])),
        ("sortOrder",
          .described "Order of variables and of commands and groups in the command tree"
            (.withDefault (.text SortOrder.settings.name) (.reference "SortOrder"))),
        ("variables", .withDefault (.list []) (.listOf (.reference "VariableDefinition") []))]
      []
  definitions :=
    [("CommandDefinition", Command.schema), ("SortOrder", SortOrder.schema),
      ("VariableDefinition", Variable.schema)]

/-! ## Running it -/

example : Settings.schema.accepts (.record [("shell", .null), ("variables", .list
    [.record [("name", .text "x"), ("options", .texts ["a"])]])]) = true := by decide +kernel
example : Settings.schema.accepts (.record [("sortOrder", .text "none")]) = false := by
  decide +kernel

end CommandLauncher
