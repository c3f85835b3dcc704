import ViewFinder.Entity

/-!
# Documents

A `Document` holds the attributes of a document read from the store. Its id and revision go by a
friendlier name too. Once marked read-only it refuses writes.
-/

namespace ViewFinder

/-- A document read from the store. -/
structure Document where
  attributes : Entries := []
  entityType : Option EntityType := none
  readonly : Bool := false
  deriving Inhabited

namespace Document

/-- The document that a raw value describes; nothing describes an empty one. -/
def ofValue (v : Value) (entityType : Option EntityType) : Except Fault Document := do
  return { attributes := ← (v.orElse (.dict [])).toEntries, entityType }

variable (d : Document)

/-- The id, null if there is none. -/
def id : Value := d.attributes.getD Name.idField

/-- The revision, null if there is none. -/
def rev : Value := d.attributes.getD Name.revisionField

/-- The stored name of a field given by any value. -/
def fieldName (name : Value) : String := Name.normalizeField name.text

/-- The attribute of a field, if it has one. -/
def find? (name : Value) : Option Value := d.attributes.get? (fieldName name)

/-- The attribute of a field, or a default. -/
def getD (name default : Value) : Value := (d.find? name).getD default

/-- The attribute that a field must have. -/
def item (name : Value) : Except Fault Value :=
  match d.find? name with
  | some v => .ok v
  | none => .error .noEntry

/-- Has the field an attribute? -/
def contains (name : Value) : Bool := (d.find? name).isSome

/-- Gives a field an attribute. -/
def set (name value : Value) : Except Fault Document :=
  if d.readonly then .error (.readOnly d.id)
  else .ok { d with attributes := d.attributes.set (fieldName name) value }

/-- Marks the document read-only. -/
def markReadonly : Document := { d with readonly := true }

/-- The parts of a document as such, besides its attributes. Its type shows only in that there is
none. -/
def ownParts : List (String × Value) :=
  [("_attributes", .dict d.attributes), ("_entity_type", .null), ("_readonly", .bool d.readonly)]

/-- The description of documents. -/
def description : String :=
  "\n    A document loaded from the store.\n\n" ++
    "    Fields are reachable as items (doc['name']) or attributes (doc.name).\n    "

/-- What a name without alias stands for: a property or a part of the document itself, or an attribute.
Names that start with an underscore are no attributes. -/
def property (name : String) : Except Fault Value :=
  let own : List (String × Value) :=
    [("id", d.id), ("rev", d.rev), ("readonly", .bool d.readonly), ("entity_type", .null)] ++ d.ownParts ++
      [("__dict__", .dict (d.ownParts.map fun (name, v) => (.str name, v))),
        ("__module__", .str "couchquery.entity"), ("__weakref__", .null),
        ("__doc__", .str description)]
  match own.lookup name with
  | some v => .ok v
  | none =>
    if name.startsWith "_" then .error .noMember
    else
      match d.attributes.get? name with
      | some v => .ok v
      | none => .error .noMember

/-- Documents with equal attributes are equal. -/
def equal (c : Document) : Bool := (Value.dict d.attributes).equal (.dict c.attributes)

/-- A short text naming type and id. -/
def text : String :=
  let name := (d.entityType.map (·.name.text)).getD "Document"
  let marker := if d.readonly then " readonly" else ""
  s!"<{name}(id={d.id.literal}){marker}>"

end Document

end ViewFinder
