import ViewFinder.Value.Access
import ViewFinder.Name

/-!
# Document types

An `EntityType` describes one kind of document of a database: the field and value that mark its
documents, its declared properties, and what becomes of a document that is read (`Factory`).
-/

namespace ViewFinder

/-- What a raw document is turned into. -/
inductive Factory where
  /-- A `Document`. -/
  | document
  /-- A copy of the raw document. -/
  | mapping
  /-- An object with the document's fields as attributes. -/
  | object
  /-- The document's id. -/
  | identity
  deriving DecidableEq, Inhabited

/-- One kind of document stored in a database. -/
structure EntityType where
  /-- Its name, a text as a rule. -/
  name : Value
  /-- The declared properties. -/
  properties : List String := []
  /-- The field that holds the kind of a document. -/
  discriminatorField : Value := .str Name.defaultDiscriminatorField
  /-- The value of that field. -/
  discriminatorValue : Value := name
  /-- The field that orders results when a query names none. -/
  defaultSort : Value := .null
  factory : Factory := .document
  deriving Inhabited

namespace EntityType

variable (e : EntityType)

/-- The name of the design document that holds the views of the type, whose own name must be a
text. -/
def designName : Except Fault String :=
  match e.name with
  | .str name => .ok (Name.underscore name)
  | _ => .error .wrongKind

/-- Is the property declared? -/
def hasProperty (name : String) : Bool := e.properties.contains name

/-- The key field of a query that names no field. -/
def defaultKeyField : String :=
  if e.hasProperty Name.createdAtField then Name.createdAtField else Name.idField

/-- Is a raw document of this type? -/
def isType (attributes : Entries) : Bool :=
  ((Entries.find? attributes e.discriminatorField).getD .null).equal e.discriminatorValue

/-- Is a raw document of this type? Only a dictionary can be asked, and only for what can be a key. -/
def accepts (document : Value) : Except Fault Bool := do
  let attributes ← document.entries
  if e.discriminatorField.hashable then return e.isType attributes else throw .wrongKind

/-- Equality of types; the factory does not take part in it. -/
def equal (f : EntityType) : Bool :=
  e.name.sameItem f.name && e.properties == f.properties &&
    e.discriminatorField.sameItem f.discriminatorField &&
    e.discriminatorValue.sameItem f.discriminatorValue && e.defaultSort.sameItem f.defaultSort

end EntityType

end ViewFinder
