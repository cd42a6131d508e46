import Logbook.Json.Fault

/-! # Errors

    Everything that can go wrong in this library, as causes and not as texts.
    The wording of each cause, and the chain of causes behind it, are functions
    of the cause.
-/

namespace Logbook

/-- An operation of the operating system that failed. -/
inductive SystemError where
  | notFound
  | alreadyExists
  | notDirectory
  | isDirectory
  | directoryNotEmpty
  | tooManyLinks
  | nameTooLong
  | invalidArgument
  | invalidText
  | deviceBusy
  | refused
  | brokenPipe
  /-- A failure with a text of its own. -/
  | other (text : String)
  deriving Repr, DecidableEq

namespace SystemError

/-- The system's wording and number of an error. -/
def message : SystemError → String
  | notFound => "No such file or directory (os error 2)"
  | alreadyExists => "File exists (os error 17)"
  | notDirectory => "Not a directory (os error 20)"
  | isDirectory => "Is a directory (os error 21)"
  | directoryNotEmpty => "Directory not empty (os error 39)"
  | tooManyLinks => "Too many levels of symbolic links (os error 40)"
  | nameTooLong => "File name too long (os error 36)"
  | invalidArgument => "Invalid argument (os error 22)"
  | invalidText => "stream did not contain valid UTF-8"
  | deviceBusy => "Device or resource busy (os error 16)"
  | refused => "Connection refused (os error 111)"
  | brokenPipe => "Broken pipe (os error 32)"
  | other text => text

end SystemError

/-- The causes of failure in this library. -/
inductive LogError where
  | configuration (component message : String) (cause : Option LogError)
  | invalidLevel (text : String)
  | missingAttribute (name : String)
  | format (message : String)
  | operation (what message : String) (cause : SystemError)
  | system (cause : SystemError)
  | document (fault : Json.Fault)
  | rotation (path message : String)
  | queueFull (capacity : Nat)
  | queueClosed
  | reentrant (handler : String)
  | panicked (message : String)
  deriving Repr, Inhabited

namespace LogError

/-- A component that cannot be set up. -/
def config (component message : String) : LogError := .configuration component message none

/-- A component that cannot be set up, and why. -/
def configBecause (component message : String) (cause : LogError) : LogError :=
  .configuration component message (some cause)

/-- The wording of an error, without its causes. -/
def message : LogError → String
  | configuration component message _ => s!"Unable to configure {component}: {message}"
  | invalidLevel text => s!"Invalid level: '{text}'"
  | missingAttribute name => s!"Record has no attribute '{name}'"
  | format message => s!"Format error: {message}"
  | operation what message _ => s!"IO error while {what}: {message}"
  | system cause => s!"IO error: {cause.message}"
  | document fault => s!"JSON error: {fault.text}"
  | rotation path message => s!"File rotation failed for '{path}': {message}"
  | queueFull capacity => s!"Log queue full: capacity {capacity}"
  | queueClosed => "Log queue closed"
  | reentrant handler => s!"Handler '{handler}' re-entered while emitting"
  | panicked message => s!"Handler panicked: {message}"

/-- The texts of the causes behind an error, nearest first. -/
def causes : LogError → List String
  | configuration _ _ (some cause) => cause.message :: cause.causes
  | operation _ _ cause => [cause.message]
  | system cause => [cause.message]
  | document fault => [fault.text]
  | _ => []

/-- A failure to render, as opposed to one of the surroundings. -/
def isFormatError : LogError → Bool
  | format _ | missingAttribute _ => true
  | _ => false

end LogError

end Logbook
