/-
  ENCODING — settings and the expansion state as document values.

  Fields are written in a fixed order.  An optional field that is absent is not written at all,
  and neither is an empty icon colour; everything else is always there, so that a user who opens
  the file sees the lists even where they are empty.
-/
import CommandLauncher.Document.Value
import CommandLauncher.Settings

namespace CommandLauncher

open Document

/-- A field that is written only if it is present. -/
def optionalField (name : String) (value : Option Value) : List (String × Value) :=
  value.toList.map fun v => (name, v)

/-- A variable as a document value. -/
def Variable.encode (v : Variable) : Value :=
  .record (
    [("name", .text v.name), ("value", .text v.value)] ++
    optionalField "description" (v.description.map .text) ++
    optionalField "options" (v.options.map .texts))

/-- A command as a document value. -/
def Command.encode (c : Command) : Value :=
  .record (
    [("title", .text c.title), ("command", .text c.command)] ++
    optionalField "group" (c.group.map .text) ++
    optionalField "description" (c.description.map .text) ++
    optionalField "icon" (c.icon.map .text) ++
    optionalField "iconColor" (c.iconColor.map .text) ++
    optionalField "sendNewLine" (c.sendNewLine.map .flag))

/-- The settings as a document value. -/
def Settings.encode (s : Settings) : Value :=
  .record (
    [("sortOrder", .text s.sortOrder.name)] ++
    (if s.commandIconColor = "" then [] else [("commandIconColor", .text s.commandIconColor)]) ++
    optionalField "sendNewLine" (s.sendNewLine.map .flag) ++
    optionalField "shell" (s.shell.map .text) ++
    [("variables", .list (s.vars.map Variable.encode)),
      ("commands", .list (s.commands.map Command.encode))])

/-- The paths of the expansion state as a document value. -/
def encodeExpansion (paths : List String) : Value := .record [("expanded", .texts paths)]

end CommandLauncher
