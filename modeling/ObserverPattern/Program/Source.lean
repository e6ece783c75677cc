import ObserverPattern.Syntax.Source
import ObserverPattern.Program.Basic

/-!
# Source text of declarations

Fields and parameters take a line or less; classes and methods are indented blocks, with a statement
to a line. A constructor is written with the name of its class and without a return type.
-/

namespace ObserverPattern

def Param.source (p : Param) : String := p.ty ++ " " ++ p.name

def Field.source (f : Field) : String :=
  match f.init with
  | some e => f.ty ++ " " ++ f.name ++ " = " ++ e.source ++ ";"
  | none => f.ty ++ " " ++ f.name ++ ";"

def Registry.methodSource (r : Registry) (id : MethodId) : Except DecodeFault String := do
  let m ← r.getMethod id
  let head ← if m.isInit then r.className m.owner else pure (m.returnType ++ " " ++ m.name)
  let params := ", ".intercalate (m.params.map Param.source)
  let body := String.join (m.body.map fun s => "    " ++ s.source ++ "\n")
  return "  " ++ head ++ "(" ++ params ++ ") \x7b\n" ++ body ++ "  \x7d\n"

def Registry.classSource (r : Registry) (id : ClassId) : Except DecodeFault String := do
  let c ← r.getClass id
  let kind := if c.isInterface then "interface " else "class "
  let superclass := match c.superclass with
    | some name => " extends " ++ name
    | none => ""
  let interfaces := if c.interfaces.isEmpty then "" else " implements " ++ ", ".intercalate c.interfaces
  let fields := String.join (c.fields.map fun f => "  " ++ f.source ++ "\n")
  let methods ← c.methods.mapM r.methodSource
  return kind ++ c.name ++ superclass ++ interfaces ++ " \x7b\n" ++ fields ++ String.join methods ++ "\x7d\n"

/-- The classes that the template of a program lists as source
text, with an empty line between them. -/
def Program.source (p : Program) : Except DecodeFault String := do
  let classes ← p.template.classes.mapM p.registry.classSource
  return "\n".intercalate classes

end ObserverPattern
