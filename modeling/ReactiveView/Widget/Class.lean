import ReactiveView.Layout.Box
import ReactiveView.Store

/-!
This module contains classes of widgets: where they may appear, their attributes with defaults, and
how their size hint follows from the attributes.
-/

namespace ReactiveView

/--
Where a widget may appear.
-/
inductive Role where
  /-- As an element; it takes part in layout. -/
  | component
  /-- As a note on the element around it. -/
  | metadata
  deriving Repr, DecidableEq

/-- A role in messages. -/
def Role.describe : Role → String
  | component => "an element"
  | metadata => "a meta"

/--
How one dimension of a size hint is found. A negative hint is none.
-/
inductive Extent where
  /-- A number. -/
  | constant (x : Float)
  /-- A multiple of a numeric attribute. -/
  | scaled (attr : String) (factor : Float)
  /-- Eight units for each character of an attribute's text, and a margin. -/
  | characters (attr : String) (margin : Float)

namespace Extent

/-- The attributes that an extent reads. -/
def reads : Extent → List String
  | constant _ => []
  | scaled attr _ => [attr]
  | characters attr _ => [attr]

/-- The extent under given attributes. -/
def measure (attrs : Table String Value) : Extent → Float
  | constant x => x
  | scaled attr factor =>
    match (attrs.get? attr).bind Value.asFloat? with
    | some x => x * factor
    | none => -1
  | characters attr margin =>
    let count := match attrs.get? attr with
      | some v => v.text.length
      | none => 0
    Float.ofNat count * 8 + margin

end Extent

/--
A class of widgets.
-/
structure WidgetClass where
  /-- The name. -/
  name : String
  /-- Where its widgets may appear. -/
  role : Role
  /-- The attributes and their defaults, in the order of their declaration. -/
  attributes : List (String × Value) := []
  /-- The attributes that the size hint is said to depend on. -/
  hintAttributes : List String := []
  /-- The width hint. -/
  width : Extent := .constant (-1)
  /-- The height hint. -/
  height : Extent := .constant (-1)

namespace WidgetClass

/-- Declare an attribute, or give a declared one another default. -/
def declareOne (cls : WidgetClass) (attr : String) (default : Value) : WidgetClass :=
  { cls with attributes := replace cls.attributes }
where
  /-- Replace the default where the attribute is declared, else append the attribute. -/
  replace : List (String × Value) → List (String × Value)
    | [] => [(attr, default)]
    | entry :: rest => if entry.1 = attr then (attr, default) :: rest else entry :: replace rest

/-- Declare several attributes. -/
def declare (cls : WidgetClass) (attrs : List (String × Value)) : WidgetClass :=
  attrs.foldl (fun cls entry => cls.declareOne entry.1 entry.2) cls

/-- How firmly a widget holds its hint, by attribute. -/
def policyAttributes : List String :=
  ["hug_width", "hug_height", "compress_width", "compress_height"]

/-- A class of elements, with the attributes that all of them have. -/
def component (name : String) : WidgetClass :=
  { name, role := .component : WidgetClass }.declare
    ([("name", .str ""), ("enabled", .bool true), ("visible", .bool true)]
      ++ policyAttributes.map fun attr => (attr, .str "strong"))

/-- A class of notes. -/
def metadata (name : String) : WidgetClass := { name, role := .metadata }

/-- Let the size hint follow from attributes. -/
def measured (cls : WidgetClass) (hintAttributes : List String) (width height : Extent) :
    WidgetClass :=
  { cls with hintAttributes, width, height }

/-- Whether an attribute is declared. -/
def declares (cls : WidgetClass) (attr : String) : Bool :=
  cls.attributes.any fun entry => entry.1 == attr

/-- The declared default of an attribute. -/
def default? (cls : WidgetClass) (attr : String) : Option Value := cls.attributes.lookup attr

/-- The size hint under given attributes. -/
def hint (cls : WidgetClass) (attrs : Table String Value) : Size Float :=
  ⟨cls.width.measure attrs, cls.height.measure attrs⟩

/-- The attributes whose change can change the size hint or how firmly it is held. -/
def watched (cls : WidgetClass) : List String :=
  (policyAttributes ++ cls.hintAttributes).filter cls.declares

/-- Make an object of a class, with the defaults. -/
def newObject (cls : WidgetClass) (store : Store) : ObjectRef × Store :=
  store.create cls.name .declared (Table.ofList cls.attributes)

end WidgetClass

/--
Classes of widgets by name.
-/
abbrev Toolkit := Table String WidgetClass

namespace Toolkit

/-- Add a class, in place of one of the same name. -/
def register (toolkit : Toolkit) (cls : WidgetClass) : Toolkit := toolkit.insert cls.name cls

/-- The common widgets, as if every character were eight units wide. -/
def common : Toolkit :=
  [(WidgetClass.component "Window").declare
      [("title", .str ""), ("hug_width", .str "ignore"), ("hug_height", .str "ignore")],
    (WidgetClass.component "Container").declare
      [("hug_width", .str "ignore"), ("hug_height", .str "ignore")],
    ((WidgetClass.component "Label").declare [("text", .str "")]).measured ["text"]
      (.characters "text" 0) (.constant 16),
    ((WidgetClass.component "Button").declare
      [("text", .str ""), ("clicked", .bool false)]).measured ["text"]
      (.characters "text" 16) (.constant 24),
    ((WidgetClass.component "Field").declare
      [("text", .str ""), ("placeholder", .str ""), ("hug_width", .str "ignore")]).measured []
      (.constant 120) (.constant 24),
    ((WidgetClass.component "CheckBox").declare
      [("text", .str ""), ("checked", .bool false)]).measured
      ["text"] (.characters "text" 20) (.constant 20),
    ((WidgetClass.component "Slider").declare
      [("value", .int 0), ("minimum", .int 0), ("maximum", .int 100),
        ("hug_width", .str "ignore")]).measured []
      (.constant 100) (.constant 20),
    (WidgetClass.metadata "Hint").declare [("text", .str "")]].foldl register Table.empty

end Toolkit

end ReactiveView
