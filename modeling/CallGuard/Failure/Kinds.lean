/-
Further kinds of errors: failures of input and output and of formatting, and bare texts and integers, which
carry a message but have no chain.
-/
import CallGuard.Failure.Basic

namespace CallGuard

/-- A failure of input or output, of some kind and with a message. -/
structure IoError where
  kind : String
  message : String
deriving DecidableEq

def ErrorType.io : ErrorType := .named "core::io::error::Error"

instance : Fault IoError where
  type := .io
  message := IoError.message
  outline e := .fields "Custom" [("kind", .atom e.kind), ("error", .text e.message)]
  link e := .other .io e.message
  sources _ := []

/-- A failure of formatting. -/
inductive FormatError where
  | failed
deriving DecidableEq

def FormatError.message : String := "an error occurred when formatting an argument"

def ErrorType.format : ErrorType := .named "core::fmt::Error"

instance : Fault FormatError where
  type := .format
  message _ := FormatError.message
  outline _ := .atom "Error"
  link _ := .other .format FormatError.message
  sources _ := []

instance : Payload String where
  type := .named "alloc::string::String"
  message s := s
  outline s := .text s

instance : Payload Int where
  type := .named "i64"
  message n := toString n
  outline n := .atom (toString n)

end CallGuard
