import ObserverPattern.Syntax.Stmt

/-!
# Declarations

What the registry of a program holds: classes and methods,
which refer to one another by their index.

* `Param.namesOfTypes` picks the parameters of a method by their type.
-/

namespace ObserverPattern

structure ClassId where
  index : Nat
  deriving DecidableEq, Repr

structure MethodId where
  index : Nat
  deriving DecidableEq, Repr

structure Param where
  ty : String
  name : String
  deriving DecidableEq

def Param.namesOfTypes (types : List String) (params : List Param) : List String :=
  (params.filter fun p => types.contains p.ty).map (·.name)

structure Field where
  ty : String
  name : String
  init : Option Expr
  deriving DecidableEq

structure MethodDecl where
  name : String
  owner : ClassId
  params : List Param
  returnType : String
  isInit : Bool
  body : Block
  deriving DecidableEq

/-- What makes a class an auxiliary dispatcher: the class of its
events and its generic handle method. -/
structure Dispatcher where
  event : ClassId
  handle : MethodId
  deriving DecidableEq

/-- A class, whose supertypes are given by name. -/
structure ClassDecl where
  name : String
  isInterface : Bool
  superclass : Option String
  interfaces : List String
  fields : List Field
  methods : List MethodId
  dispatcher : Option Dispatcher
  /-- The name of the field that collects the observers, once the class plays the subject. -/
  collection : Option String
  deriving DecidableEq

def ClassDecl.empty (name : String) : ClassDecl := ⟨name, false, none, [], [], [], none, none⟩

end ObserverPattern
