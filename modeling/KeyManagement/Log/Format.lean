import KeyManagement.Json.Writer
import KeyManagement.Time.Timestamp

/-! # Log formats

How log events are written: as lines for a reader, or as one JSON object each.
-/

namespace KeyManagement

inductive LogFormat
  | console
  | json
  deriving DecidableEq, Repr

namespace LogFormat

def name : LogFormat → String
  | .console => "console"
  | .json => "json"

def names : List String := [console, json].map name

/-- A format that is not known, in small letters. -/
structure Unknown where
  format : String
  deriving DecidableEq, Repr

def Unknown.message (e : Unknown) : String := "unknown log format: " ++ e.format

/-- Reads a format in any case. The console has two more names. -/
def parse (s : String) : Except Unknown LogFormat :=
  match s.toLower with
  | "console" | "text" | "pretty" => .ok .console
  | "json" => .ok .json
  | other => .error ⟨other⟩

/-- The line of an event that informs. -/
def line (format : LogFormat) (time : Timestamp) (message : String) : String :=
  match format with
  | .console => time.render ++ " INFO " ++ message
  | .json =>
    Json.render (.record [
      ("timestamp", .text time.render), ("level", .text "INFO"), ("message", .text message)])

end LogFormat

end KeyManagement
