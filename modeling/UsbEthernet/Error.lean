/-! The failures that configuration, framing and queues report. Malformed input on the receive
path is not among them: it is dropped and counted. -/
namespace UsbEthernet

inductive Error where
  | txFailure
  | rxFailure
  | badArgument
  | invalidInput
  | noSpace
  | disconnected
  | other
deriving DecidableEq

namespace Error

def all : List Error :=
  [txFailure, rxFailure, badArgument, invalidInput, noSpace, disconnected, other]

def name : Error → String
  | txFailure => "TxFailure"
  | rxFailure => "RxFailure"
  | badArgument => "BadArgument"
  | invalidInput => "InvalidInput"
  | noSpace => "NoSpace"
  | disconnected => "Disconnected"
  | other => "Other"

def ofName? (name : String) : Option Error :=
  all.find? fun e => e.name == name

def message (e : Error) : String :=
  "ECM Error: " ++ e.name

/-- An error of the operating system: a kind and a text. -/
structure System where
  kind : String
  text : String

/-- None of the errors has a kind of its own among those of the system; the text is kept. -/
def toSystem (e : Error) : System :=
  ⟨"Other", e.message⟩

end Error

/-- Why a call gives no answer: an error it reports, or a use that its contract forbids. -/
inductive Fault where
  | error (e : Error)
  | misuse
deriving DecidableEq

end UsbEthernet
