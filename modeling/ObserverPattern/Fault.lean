import ObserverPattern.Program.Declaration

/-!
# Faults

The causes that stop a decode. `DecodeFault.message` is the one place that words them.
-/

namespace ObserverPattern

inductive RegistryTable where
  | classes
  | methods
  deriving DecidableEq

def RegistryTable.entryName : RegistryTable → String
  | .classes => "class"
  | .methods => "method"

inductive FactFault where
  /-- The payload is a comparison, but no longer one when the receivers have been replaced. -/
  | comparisonLost
  /-- The index has a digit that is not an ASCII one. -/
  | foreignDigit
  | indexTooLarge
  deriving DecidableEq

def FactFault.detail : FactFault → String
  | .comparisonLost => "comparison no longer matches after receiver replacement"
  | .foreignDigit => "invalid digit found in string"
  | .indexTooLarge => "number too large to fit in target type"

inductive UpdateArgument where
  | event
  | receiver
  deriving DecidableEq

def UpdateArgument.omission : UpdateArgument → String
  | .event => "DropEvent"
  | .receiver => "DropReceiver"

/-- What breaks the contract between a skeleton and its decoder. -/
inductive ContractFault where
  | danglingClass (id : ClassId)
  | danglingMethod (id : MethodId)
  | danglingEvent (id : ClassId)
  | danglingHandle (id : MethodId)
  | danglingOwner (id : ClassId)
  | noDispatcher
  | notListed
  | noParameter (ty : String)
  | noParameters
  /-- The call of an update method does not pass the argument it should do without. -/
  | nothingToDrop (argument : UpdateArgument)
  | tooDeep (levels : Nat)
  | operandCount (name : String) (count : Nat)
  | negativeIndex (n : Int)
  /-- A fault that a pass puts in words of its own. -/
  | other (detail : String)
  deriving DecidableEq

def ContractFault.detail : ContractFault → String
  | .danglingClass id => "dangling class#" ++ toString id.index
  | .danglingMethod id => "dangling method#" ++ toString id.index
  | .danglingEvent id => "dangling event class#" ++ toString id.index
  | .danglingHandle id => "dangling handle method#" ++ toString id.index
  | .danglingOwner id => "declared by dangling class#" ++ toString id.index
  | .noDispatcher => "class has no event or handle"
  | .notListed => "not listed in the template"
  | .noParameter ty => "no formal parameter of type " ++ ty
  | .noParameters => "update method takes no parameters"
  | .nothingToDrop argument => "update call has no argument to drop for " ++ argument.omission
  | .tooDeep levels => "statement nesting exceeds " ++ toString levels ++ " levels"
  | .operandCount name count => "@" ++ name ++ " takes two operands, got " ++ toString count
  | .negativeIndex n => "negative class index " ++ toString n
  | .other detail => detail

/-- What stops a decode. -/
inductive DecodeFault where
  | missingRole (aux hole : String)
  | roleOutOfRange (aux hole : String) (index : Nat) (table : RegistryTable) (size : Nat)
  /-- Attach and detach method of an interface subject belong to different classes. -/
  | roleConsistency (aux attachClass detachClass : String)
  /-- An interface subject has no attach or detach method that would name a class. -/
  | abstractSubject (aux subject : String)
  | missingFact (method left right : String)
  | malformedFact (payload : String) (fault : FactFault)
  | contract (location : String) (fault : ContractFault)
  | unknownAux (name : String)
  | noClass (id : ClassId)
  | noMethod (id : MethodId)
  | config
  | encoding
  deriving DecidableEq

def DecodeFault.message : DecodeFault → String
  | .missingRole aux hole => aux ++ ": no assignment for role hole '" ++ hole ++ "'"
  | .roleOutOfRange aux hole index table size =>
    aux ++ ": role hole '" ++ hole ++ "' = " ++ toString index ++ " is outside the " ++ table.entryName ++
      " registry (len " ++ toString size ++ ")"
  | .roleConsistency aux attachClass detachClass =>
    aux ++ ": attach and detach must belong to the same class (" ++ attachClass ++ " != " ++
      detachClass ++ ")"
  | .abstractSubject aux subject =>
    aux ++ ": subject " ++ subject ++ " is an interface and neither attach nor detach names a concrete class"
  | .missingFact method left right =>
    method ++ ": no comparison fact covers '" ++ left ++ "' and '" ++ right ++ "'"
  | .malformedFact payload fault => "Malformed trace fact '" ++ payload ++ "': " ++ fault.detail
  | .contract location fault => "Structural contract violated at " ++ location ++ ": " ++ fault.detail
  | .unknownAux name => "Unknown auxiliary dispatcher: " ++ name
  | .noClass id => "no class#" ++ toString id.index ++ " in the registry"
  | .noMethod id => "no method#" ++ toString id.index ++ " in the registry"
  | .config => "Configuration error: the text does not describe a configuration"
  | .encoding => "I/O error: the bytes are not valid UTF-8"

end ObserverPattern
