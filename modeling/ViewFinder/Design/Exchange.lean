import ViewFinder.Design
import ViewFinder.Value.Order
import ViewFinder.Yaml.Printer
import ViewFinder.Yaml.Node.Meaning

/-!
# Exchanging views

The views of a design document can be written to a YAML file and read from one, to carry them from
one database to another. Ids and revisions are left out.
-/

namespace ViewFinder

namespace Views

/-- The order of two named views, by their names. Where these are equal the views would have to
decide, and different ones are not comparable. -/
def nameLess? (a b : Value × ViewDefinition) : Option Bool :=
  if a.1.sameItem b.1 then (if a.2.equal b.2 then some false else none) else a.1.less? b.1

/-- The views in ascending order of their names. -/
def sorted (views : Views) : Except Fault Views :=
  match Sorting.byRuns? nameLess? views with
  | some sorted => .ok sorted
  | none => .error .wrongKind

end Views

namespace Views

/-- The views of stored bodies; nothing counts as an empty body. -/
def ofLooseBodies (bodies : Entries) : Except Fault Views :=
  ofBodies (bodies.map fun (name, body) => (name, body.orElse (.dict [])))

/-- The views that a YAML text describes. -/
def importYaml (text : String) : Except Fault Views := do
  let data ← Yaml.read text
  match ← (data.orElse (.dict [])).member "views" with
  | .dict bodies => ofLooseBodies bodies
  | _ => throw (.refused .noViewsMapping)

end Views

namespace DesignDocument

/-- The views of a design document as YAML. -/
def exportYaml (d : DesignDocument) : Except Fault String := do
  let name ← d.name
  let views ← d.views.sorted
  return Yaml.printEntries [(.str "design", .str name), (.str "views", .dict views.toBodies)]

end DesignDocument

end ViewFinder
