/-
# Reports as data

Reports, findings and rules as JSON values.
-/

import MappingAudit.Report.Fixes
import MappingAudit.Report.Json

namespace MappingAudit

/-- Texts as data. -/
def JsonValue.texts (xs : List String) : JsonValue := .list (xs.map .text)

/-- A span as data. -/
def Span.data (s : Span) : JsonValue :=
  .object [("start_line", .number s.startLine), ("start_col", .number s.startColumn),
    ("end_line", .number s.endLine), ("end_col", .number s.endColumn),
    ("start_byte", .number s.startByte), ("end_byte", .number s.endByte)]

/-- The details of a finding as data; nothing for no details. -/
def Finding.detailData (f : Finding) : List (String × JsonValue) :=
  if f.details.isEmpty then []
  else [("properties", .object (f.sortedDetails.map fun (d, v) => (d.name, .text v)))]

/-- A finding as data. -/
def Finding.data (f : Finding) : JsonValue :=
  .object ([("rule_id", .text f.rule.code), ("severity", .text f.severity.name),
    ("message", .text f.message), ("args", JsonValue.texts f.args), ("file", .text f.file),
    ("span", f.span.data)] ++ f.detailData ++ [("registration", .number f.registration)])

/-- A document as data. -/
def DocumentSummary.data (d : DocumentSummary) : JsonValue :=
  .object [("path", .text d.path), ("hash", .text d.hash), ("registrations", .number d.registrations)]

/-- A report as data. -/
def Report.data (r : Report) : JsonValue :=
  .object [("version", .text version), ("documents", .list (r.documents.map (·.data))),
    ("findings", .list (r.findings.map (·.data))), ("errors", .number r.errors),
    ("warnings", .number r.warnings), ("infos", .number r.infos)]

/-- The report of a repair as data. -/
def FixReport.data (r : FixReport) : JsonValue :=
  .object [("applied", JsonValue.texts r.applied), ("skipped", JsonValue.texts r.skipped),
    ("errors", JsonValue.texts r.errors), ("changed", JsonValue.texts r.changed),
    ("remaining", r.remaining.data)]

/-- A rule as data. -/
def RuleId.data (r : RuleId) : JsonValue :=
  .object [("category", .text r.family.key), ("id", .text r.code), ("message", .text r.template),
    ("severity", .text r.severity.name), ("title", .text r.title)]

end MappingAudit
