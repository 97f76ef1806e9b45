/-!
# What can go wrong

Every failure of the service is an `Error`. Its constructors say what kind of failure it is; the
words are `Error.message`. A failure may have a **cause** that lies deeper, a refusal of the
operating system or of a document, which is kept beside it as text: a report of the failure appends
it (`Error.report`).
-/

namespace Rulebook

/-- **Why a file cannot be used.** -/
inductive IoFault where
  /-- There is no such file. -/
  | notFound
  /-- A file stands where a directory is needed. -/
  | notDirectory
  /-- A directory stands where a file is needed. -/
  | isDirectory
  /-- Links lead to links too often. -/
  | tooManyLinks
  /-- A name is too long. -/
  | nameTooLong
  /-- A name holds a null character. -/
  | nullInName
  /-- The content is not well-formed UTF-8. -/
  | invalidText
  /-- Something is not allowed. -/
  | permissionDenied
  /-- An address cannot be listened at. -/
  | addressNotAvailable
  /-- A failure described in words. -/
  | other (message : String)
deriving DecidableEq, Repr

/-- The words for a fault of a file. -/
def IoFault.message : IoFault → String
  | .notFound => "No such file or directory (os error 2)"
  | .notDirectory => "Not a directory (os error 20)"
  | .isDirectory => "Is a directory (os error 21)"
  | .tooManyLinks => "Too many levels of symbolic links (os error 40)"
  | .nameTooLong => "File name too long (os error 36)"
  | .nullInName => "file name contained an unexpected NUL byte"
  | .invalidText => "stream did not contain valid UTF-8"
  | .permissionDenied => "Permission denied (os error 13)"
  | .addressNotAvailable => "Cannot assign requested address (os error 99)"
  | .other message => message

/-- **A failure of the service.** -/
inductive Error where
  /-- A file or directory that is needed cannot be read. -/
  | file (path : String) (fault : IoFault)
  /-- A document is not what it should be. -/
  | parse (message : String) (cause : Option String)
  /-- A file that a rule must have is missing. -/
  | missingMandatoryFile (name : String)
  /-- A field has a shape that is not accepted. -/
  | invalidItem (item message : String)
  /-- Content that can be read breaks the rules for content. -/
  | invalidContent (message : String)
  /-- The settings are not usable. -/
  | configuration (message : String) (cause : Option String)
  /-- An answer cannot be written. -/
  | serialization (message : String)
  /-- Anything else. -/
  | internal (message : String)
deriving DecidableEq, Repr

namespace Error

/-- **The words of a failure.** -/
def message : Error → String
  | .file path fault => "cannot read '" ++ path ++ "': " ++ fault.message
  | .parse message _ => "parse error: " ++ message
  | .missingMandatoryFile name => "missing mandatory file: " ++ name
  | .invalidItem item message => "invalid item '" ++ item ++ "': " ++ message
  | .invalidContent message => "invalid content: " ++ message
  | .configuration message _ => "configuration error: " ++ message
  | .serialization message => "serialization error: " ++ message
  | .internal message => "internal error: " ++ message

/-- A text that begins with another one is empty only when that one is. -/
theorem append_ne_empty {first rest : String} (h : first ≠ "") : first ++ rest ≠ "" := by
  rw [Ne, String.append_eq_empty_iff]
  exact fun hboth => h hboth.1

/-- **No failure is without words.** -/
theorem message_ne_empty (error : Error) : error.message ≠ "" := by
  cases error with
  | file | invalidItem => exact append_ne_empty (append_ne_empty (append_ne_empty (by decide)))
  | parse | missingMandatoryFile | invalidContent | configuration | serialization | internal =>
    exact append_ne_empty (by decide)

/-- The words of the cause, if there is one. -/
def cause : Error → Option String
  | .file _ fault => some fault.message
  | .parse _ cause => cause
  | .configuration _ cause => cause
  | _ => none

/-- Whether a file or directory cannot be read. -/
def isFileError : Error → Bool
  | .file .. => true
  | _ => false

/-- **The failure with its cause.** -/
def report (error : Error) : String :=
  match error.cause with
  | none => error.message
  | some cause => error.message ++ ": " ++ cause

/-- A failure that repeats the words of its cause behind some others. -/
def withContext (context fault : String) : String := context ++ ": " ++ fault

end Error

/-- **Two steps succeed when the first does and the second does behind it.** -/
theorem bind_eq_ok {ε α β : Type} {step : Except ε α} {next : α → Except ε β} {result : β} :
    (step >>= next) = .ok result ↔ ∃ value, step = .ok value ∧ next value = .ok result := by
  constructor
  · intro h
    cases step with
    | error fault => cases h
    | ok value => exact ⟨value, rfl, h⟩
  · rintro ⟨value, rfl, h⟩
    exact h

/-- **Two steps fail when the first does or the second does behind it.** -/
theorem bind_eq_error {ε α β : Type} {step : Except ε α} {next : α → Except ε β} {fault : ε} :
    (step >>= next) = .error fault
      ↔ step = .error fault ∨ ∃ value, step = .ok value ∧ next value = .error fault := by
  cases step with
  | error other => simp [bind, Except.bind]
  | ok value => simp [bind, Except.bind]

/-- A step whose result is changed succeeds when it does. -/
theorem map_eq_ok {ε α β : Type} {step : Except ε α} {f : α → β} {result : β} :
    (f <$> step) = .ok result ↔ ∃ value, step = .ok value ∧ f value = result := by
  constructor
  · intro h
    cases step with
    | error fault => cases h
    | ok value =>
      cases h
      exact ⟨value, rfl, rfl⟩
  · rintro ⟨value, rfl, rfl⟩
    rfl

/-- A step whose result is changed fails when it does. -/
theorem map_eq_error {ε α β : Type} {step : Except ε α} {f : α → β} {fault : ε} :
    (f <$> step) = .error fault ↔ step = .error fault := by
  constructor
  · intro h
    cases step with
    | error other =>
      cases h
      rfl
    | ok value => cases h
  · rintro rfl
    rfl

/-- A step succeeds when there is a result once its failure is forgotten. -/
theorem eq_ok_of_toOption {ε α : Type} {step : Except ε α} {result : α}
    (h : step.toOption = some result) : step = .ok result := by
  cases step with
  | error fault => cases h
  | ok value => exact congrArg Except.ok (Option.some.inj h)

end Rulebook
