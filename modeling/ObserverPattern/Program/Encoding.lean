import ObserverPattern.Syntax.Encoding
import ObserverPattern.Program.Basic

/-!
# Programs as JSON

Declarations, registries, templates and programs as records: `toJson` writes every field, and `read`
takes the default of a field that may be left out. An index is a plain number of 64 bits.
-/

namespace ObserverPattern

open Json

/-! ## Writing -/

def ClassId.toJson (id : ClassId) : Json := .nat id.index

def MethodId.toJson (id : MethodId) : Json := .nat id.index

def Param.toJson (p : Param) : Json := .record [("ty", .text p.ty), ("name", .text p.name)]

def Field.toJson (f : Field) : Json :=
  .record [("ty", .text f.ty), ("name", .text f.name), ("init", .option Expr.toJson f.init)]

def MethodDecl.toJson (m : MethodDecl) : Json :=
  .record [("name", .text m.name), ("clazz", m.owner.toJson), ("params", .array (m.params.map Param.toJson)),
    ("ret_ty", .text m.returnType), ("is_init", .bool m.isInit), ("body", .array (Stmt.listToJson m.body))]

def Dispatcher.toJson (d : Dispatcher) : Json :=
  .record [("event", d.event.toJson), ("handle", d.handle.toJson)]

def ClassDecl.toJson (c : ClassDecl) : Json :=
  .record [("name", .text c.name), ("is_interface", .bool c.isInterface),
    ("sup", .option .text c.superclass), ("interfaces", .array (c.interfaces.map .text)),
    ("fields", .array (c.fields.map Field.toJson)), ("methods", .array (c.methods.map MethodId.toJson)),
    ("aux", .option Dispatcher.toJson c.dispatcher), ("collection_field", .option .text c.collection)]

def Registry.toJson (r : Registry) : Json :=
  .record [("classes", .array (r.classes.map ClassDecl.toJson)),
    ("methods", .array (r.methods.map MethodDecl.toJson))]

def Template.toJson (t : Template) : Json :=
  .record [("classes", .array (t.classes.map ClassId.toJson)), ("obs_auxs", .array (t.auxs.map .text))]

def Program.toJson (p : Program) : Json :=
  .record [("template", p.template.toJson), ("registry", p.registry.toJson)]

/-! ## Reading -/

def ClassId.read : Reader ClassId := fun depth v => (readWord depth v).map ClassId.mk

def MethodId.read : Reader MethodId := fun depth v => (readWord depth v).map MethodId.mk

def Param.read : Reader Param
  | 0, _ => none
  | depth + 1, v => do
    let [ty, name] ← fields? ["ty", "name"] v | none
    some { ty := ← readString depth ty, name := ← readString depth name }

def Field.read : Reader Field
  | 0, _ => none
  | depth + 1, v => do
    let [some ty, some name, init] ← slots? [("ty", .refused), ("name", .refused), ("init", .defaulted)] v
      | none
    some
      { ty := ← readString depth ty
        name := ← readString depth name
        init := ← readOr (readOption Expr.read) none depth init }

def MethodDecl.read : Reader MethodDecl
  | 0, _ => none
  | depth + 1, v => do
    let [some name, some owner, params, returnType, isInit, body] ←
      slots? [("name", .refused), ("clazz", .refused), ("params", .defaulted), ("ret_ty", .defaulted),
        ("is_init", .defaulted), ("body", .defaulted)] v
      | none
    some
      { name := ← readString depth name
        owner := ← ClassId.read depth owner
        params := ← readOr (readList Param.read) [] depth params
        returnType := ← readOr readString "void" depth returnType
        isInit := ← readOr readBool false depth isInit
        body := ← readOr (readList Stmt.read) [] depth body }

def Dispatcher.read : Reader Dispatcher
  | 0, _ => none
  | depth + 1, v => do
    let [event, handle] ← fields? ["event", "handle"] v | none
    some { event := ← ClassId.read depth event, handle := ← MethodId.read depth handle }

def ClassDecl.read : Reader ClassDecl
  | 0, _ => none
  | depth + 1, v => do
    let [some name, isInterface, superclass, interfaces, fields, methods, dispatcher, collection] ←
      slots? [("name", .refused), ("is_interface", .defaulted), ("sup", .defaulted),
        ("interfaces", .defaulted), ("fields", .defaulted), ("methods", .defaulted), ("aux", .defaulted),
        ("collection_field", .defaulted)] v
      | none
    some
      { name := ← readString depth name
        isInterface := ← readOr readBool false depth isInterface
        superclass := ← readOr (readOption readString) none depth superclass
        interfaces := ← readOr (readList readString) [] depth interfaces
        fields := ← readOr (readList Field.read) [] depth fields
        methods := ← readOr (readList MethodId.read) [] depth methods
        dispatcher := ← readOr (readOption Dispatcher.read) none depth dispatcher
        collection := ← readOr (readOption readString) none depth collection }

def Registry.read : Reader Registry
  | 0, _ => none
  | depth + 1, v => do
    let [classes, methods] ← fields? ["classes", "methods"] v | none
    some
      { classes := ← readList ClassDecl.read depth classes
        methods := ← readList MethodDecl.read depth methods }

def Template.read : Reader Template
  | 0, _ => none
  | depth + 1, v => do
    let [some classes, auxs] ← slots? [("classes", .refused), ("obs_auxs", .defaulted)] v | none
    some
      { classes := ← readList ClassId.read depth classes
        auxs := ← readOr (readList readString) [] depth auxs }

def Program.read : Reader Program
  | 0, _ => none
  | depth + 1, v => do
    let [template, registry] ← fields? ["template", "registry"] v | none
    some { template := ← Template.read depth template, registry := ← Registry.read depth registry }

end ObserverPattern
