import ChimneyPost.Text.Str

/-!
# Errors

`ChimneyError` with the text each variant displays.  The payloads of errors that
come from elsewhere (I/O, TOML, SQLite) are kept as their display text.
-/

namespace ChimneyPost

inductive ChimneyError where
  | smtp (text : Str)
  | smtpSizeExceeded
  | smtpLineTooLong
  | smtpDataIncomplete
  | matrix (text : Str)
  | config (text : Str)
  | template (text : Str)
  | io (text : Str)
  | toml (text : Str)
  | queue (text : Str)
  | queueFull
  | storage (text : Str)
deriving DecidableEq, Repr

/-- `Display` for `ChimneyError`. -/
def ChimneyError.display : ChimneyError → Str
  | .smtp text => "SMTP error: ".toList ++ text
  | .smtpSizeExceeded => "SMTP message size exceeded".toList
  | .smtpLineTooLong => "SMTP line exceeded the maximum length".toList
  | .smtpDataIncomplete => "SMTP DATA ended before the terminator".toList
  | .matrix text => "Matrix error: ".toList ++ text
  | .config text => "Configuration error: ".toList ++ text
  | .template text => "Template error: ".toList ++ text
  | .io text => "IO error: ".toList ++ text
  | .toml text => "TOML error: ".toList ++ text
  | .queue text => "Queue error: ".toList ++ text
  | .queueFull => "queue is full".toList
  | .storage text => "Storage error: ".toList ++ text

end ChimneyPost
