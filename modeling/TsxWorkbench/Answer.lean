/-
JSON form of what the workbench answers: one object per record, keys in camel case, a missing value as null unless the
field itself is left out.
-/
import TsxWorkbench.Workbench

namespace TsxWorkbench

open Json

namespace Text

def Position.toJson (p : Position) : Json := .object [("line", .ofNat p.line), ("column", .ofNat p.column)]

def TextRange.toJson (r : TextRange) : Json :=
  .object [("startLine", .ofNat r.startLine), ("startColumn", .ofNat r.startColumn), ("endLine", .ofNat r.endLine),
    ("endColumn", .ofNat r.endColumn)]

end Text

namespace Files

def Segment.toJson (s : Segment) : Json :=
  .object [("fileName", .ofOption .string s.file), ("expandedStartLine", .ofNat s.expandedStart),
    ("originalStartLine", .ofNat s.blockStart), ("lineCount", .ofNat s.count)]

def Scan.toJson (s : Scan) : Json :=
  .object [("mainSource", .ofChars s.main.text),
    ("files", .object (s.files.map fun (name, block) => (name, .ofChars block.text))),
    ("hasFileBlocks", .bool s.hasFileBlocks), ("expandedSource", .ofChars s.expandedSource),
    ("lineMapSegments", .array (s.segments.map Segment.toJson)),
    ("fileOrder", .array (s.files.map fun f => .string f.1))]

end Files

namespace Analysis

def Export.toJson (e : Export) : Json := .object [("name", .string e.name), ("isDefault", .bool e.isDefault)]

/-- only an enumeration has values -/
def PropDefinition.toJson (d : PropDefinition) : Json :=
  let values := match d.shownType with
    | .enumeration vs => [("enumValues", Json.array vs)]
    | _ => []
  .object ([("key", .string d.key), ("label", .ofChars (label d.key.toList)), ("type", .string d.shownType.name),
    ("required", .bool d.isRequired)] ++ values)

def Props.fields (p : Props) : List (String × Json) :=
  [("exports", .array (p.exports.map Export.toJson)), ("propsSchema", .array (p.definitions.map PropDefinition.toJson)),
    ("defaultProps", .object p.defaults), ("duplicateKeys", .array (p.duplicateKeys.map .string))]

def Issue.toJson (i : Issue) : Json :=
  .object [("kind", .string i.kind.name), ("message", .string i.message), ("line", .ofNat i.position.line),
    ("column", .ofNat i.position.column)]

def InspectElement.toJson (e : InspectElement) : Json :=
  .object [("elementRange", e.range.toJson), ("textRanges", .array (e.texts.map Text.TextRange.toJson)),
    ("elementType", .string (if e.name.isSome then "element" else "fragment")),
    ("elementName", .ofOption .string e.name)]

def InspectIndex.toJson (index : InspectIndex) : Json :=
  .object [("version", .ofNat indexVersion), ("elements", .array (List.map InspectElement.toJson index))]

end Analysis

namespace Edit

/-- a place, a reason and notices are left out where there are none -/
def EditResult.toJson (r : EditResult) : Json :=
  .object ([("source", .ofChars r.source), ("changed", .bool r.changed)] ++
    (r.insertedAt.map fun p => ("insertedAt", p.toJson)).toList ++
    (r.refusal.map fun reason => ("reason", Json.string reason.message)).toList ++
    (if r.notices.isEmpty then [] else [("notices", .array (r.notices.map .string))]))

end Edit

def Report.toJson (r : Report) : Json :=
  .object (r.props.fields ++ [("securityIssues", .array (r.issues.map Analysis.Issue.toJson)),
    ("tailwindCss", .ofOption .ofChars r.css), ("sourceHash", .ofChars r.digest),
    ("inspectIndexByFile", .ofOption (fun blocks => .object (blocks.map fun (name, index) => (name, index.toJson)))
      r.inspect),
    ("lineMapSegments", .array (r.segments.map Files.Segment.toJson))] ++
    (r.parseError.map fun message => ("parseError", Json.string message)).toList)

end TsxWorkbench
