/-!
# The error surface

The errors of the public functions with their stable codes, and the ways in
which a call can end without a value.
-/

namespace ProofFrame

/-- The stable machine-readable category of a failure. -/
inductive ErrorCode where
  | arrow | io
  | contractInvalidJson | contractUnknownField | contractInvalidBound | contractInvalidRatio
  | contractInvalidType | contractDraft | contractDuplicateRule | contractTypeMismatch
  | referenceUnbound | schemaMismatch | missingColumn | unsupportedType | duplicateKey
  | noKeyColumns | resourceLimit | corruptPartition | fingerprintVersion
  | receiptInvalid | receiptInvalidSignature | receiptUntrustedSigner | cancelled
  deriving DecidableEq, Repr

/-- An error value.  The payloads of the library errors are their messages. -/
inductive ProofFrameError where
  | contract (code : ErrorCode) (message : String) (path : Option String)
  | arrow (message : String)
  | io (message : String)
  | regex (message : String)
  | json (message : String)
  | utf8 (message : String)
  | invalidContract (message : String)
  | review (message : String)
  | missingColumn (name : String)
  | unsupportedType (dataType : String)
  | schemaMismatch (message : String)
  | duplicateKey (key : String)
  | noKeyColumns
  | corruptData (message : String)
  | invalidReceipt (message : String)
  | resourceLimit (resource : String) (requested used limit : Nat)
  | cancelled
  deriving DecidableEq, Repr

def ProofFrameError.code : ProofFrameError → ErrorCode
  | .contract code _ _ => code
  | .arrow _ => .arrow
  | .io _ => .io
  | .regex _ => .contractInvalidBound
  | .json _ | .invalidContract _ | .review _ => .contractInvalidJson
  | .utf8 _ | .corruptData _ => .corruptPartition
  | .missingColumn _ => .missingColumn
  | .unsupportedType _ => .unsupportedType
  | .schemaMismatch _ => .schemaMismatch
  | .duplicateKey _ => .duplicateKey
  | .noKeyColumns => .noKeyColumns
  | .invalidReceipt _ => .receiptInvalid
  | .resourceLimit .. => .resourceLimit
  | .cancelled => .cancelled

/-- The `Display` of an error. -/
def ProofFrameError.display : ProofFrameError → String
  | .contract _ message _ | .arrow message | .io message | .regex message | .json message
  | .utf8 message | .invalidContract message | .review message | .corruptData message
  | .invalidReceipt message => message
  | .missingColumn name => "Key column `" ++ name ++ "` is missing"
  | .unsupportedType dataType =>
      "Unsupported Arrow type `" ++ dataType ++ "` for canonical fingerprinting"
  | .schemaMismatch message => "Schemas differ; " ++ message
  | .duplicateKey key => "Duplicate key `" ++ key ++ "`; diff keys must be unique"
  | .noKeyColumns => "At least one key column is required"
  | .resourceLimit resource requested used limit =>
      "Resource limit exceeded for " ++ resource ++ ": requested " ++ toString requested ++
        " with " ++ toString used ++ " used and " ++ toString limit ++ " allowed"
  | .cancelled => "Operation cancelled"

/-- How a call ends when it returns no value: with an error, by panicking at one of the
`expect`, `unreachable!` or index expressions, or not at all (a loop of the model that used up
the turns its input allows). -/
inductive Fault where
  | error (error : ProofFrameError)
  | panic (site : String)
  | diverged
  deriving DecidableEq, Repr

namespace Fault

/-- The error is one of the given codes, and in particular the call neither panics nor loops. -/
def Coded (codes : List ErrorCode) : Fault → Prop
  | .error e => e.code ∈ codes
  | .panic _ | .diverged => False

instance (codes : List ErrorCode) : DecidablePred (Coded codes)
  | .error e => inferInstanceAs (Decidable (e.code ∈ codes))
  | .panic _ => .isFalse id
  | .diverged => .isFalse id

theorem Coded.mono {codes codes' : List ErrorCode} {fault : Fault} (h : fault.Coded codes)
    (hsub : codes ⊆ codes') : fault.Coded codes' := by
  cases fault with
  | error e => exact hsub h
  | panic site => exact h
  | diverged => exact h

end Fault

def contractError (code : ErrorCode) (message : String) (path : Option String) : Fault :=
  .error (.contract code message path)

end ProofFrame
