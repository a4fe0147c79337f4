import DecimalConformance.Document
import DecimalConformance.Tally

/-! Reports on a finished run: one line for people, a document for programs. -/
namespace DecimalConformance

/-- The counts and every failed test. -/
structure Report where
  counters : Counters
  failures : List FailureRecord
  deriving DecidableEq, Repr

/-- The counts in one line. -/
def Counters.summary (counters : Counters) : String :=
  s!"{counters.total} tests. {counters.succeeded} successful, {counters.failed} failed, " ++
    s!"{counters.skipped} skipped"

namespace FailureRecord

/-- A failed test in one line. -/
def summary (record : FailureRecord) : String :=
  s!"failed test: {record.line}, {record.computed} != {record.expected}, " ++
    s!"precision: {record.precision}, rounding mode: {record.rounding}"

def document (record : FailureRecord) : Document :=
  .object [("name", .text record.name), ("line", .text record.line),
    ("computed", .text record.computed), ("expected", .text record.expected),
    ("precision", .number record.precision), ("rounding", .text record.rounding)]

end FailureRecord

/-- The report as a document. -/
def Report.document (report : Report) : Document :=
  .object [("total", .number report.counters.total),
    ("succeeded", .number report.counters.succeeded), ("failed", .number report.counters.failed),
    ("skipped", .number report.counters.skipped),
    ("failures", .list (report.failures.map FailureRecord.document))]

end DecimalConformance
