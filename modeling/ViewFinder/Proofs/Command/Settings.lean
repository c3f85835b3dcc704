import ViewFinder.Command.Settings
import ViewFinder.Proofs.Command.Workplace
import ViewFinder.Proofs.Entries
import ViewFinder.Proofs.Json.RoundTrip

/-!
# Files of settings

Setting the fields of a section by name is merging its entries into the defaults, if all names are known
(`Config.setFields_of_known`). So an object whose sections are objects of known names is read as the settings
that it describes, and any other as none (`Config.ofValue_of_isSettings`, `Config.ofValue_of_not_isSettings`).
A file with a text that is no such object counts as if it were not there, unless the text is some other JSON
value or is refused for its length or depth: then loading it ends with a fault (`Config.load_intended_iff`).
-/

namespace ViewFinder.Config

open Command

/-! ## Fields by name -/

/-- Setting a field by name is setting an entry, and there are no names but those of the entries. -/
structure SetsEntries {α : Type} (set? : α → String → Value → Option α) (toEntries : α → Entries) :
    Prop where
  texts : ∀ a, ∀ e ∈ toEntries a, ∃ n, e.1 = .str n
  sets : ∀ a n v, (set? a n v).map toEntries = ((toEntries a).get? n).map fun _ => (toEntries a).set n v

theorem setsEntries_connection : SetsEntries ConnectionConfig.set? ConnectionConfig.toEntries where
  texts a := by simp [ConnectionConfig.toEntries]
  sets a n v := by
    unfold ConnectionConfig.set?
    split <;> simp_all [ConnectionConfig.toEntries, Entries.set, Entries.insert, eq_comm]

theorem setsEntries_query : SetsEntries QueryConfig.set? QueryConfig.toEntries where
  texts a := by simp [QueryConfig.toEntries]
  sets a n v := by
    unfold QueryConfig.set?
    split <;> simp_all [QueryConfig.toEntries, Entries.set, Entries.insert, eq_comm]

theorem setsEntries_command : SetsEntries CommandConfig.set? CommandConfig.toEntries where
  texts a := by simp [CommandConfig.toEntries]
  sets a n v := by
    unfold CommandConfig.set?
    split <;> simp_all [CommandConfig.toEntries, Entries.set, Entries.insert, eq_comm]

section
variable {α : Type} {set? : α → String → Value → Option α} {toEntries : α → Entries}
  (h : SetsEntries set? toEntries)
include h

theorem SetsEntries.of_mem {a : α} {n : String} (hn : Value.str n ∈ (toEntries a).map (·.1)) (v : Value) :
    ∃ b, set? a n v = some b ∧ toEntries b = (toEntries a).set n v := by
  have hsets := h.sets a n v
  cases hget : (toEntries a).get? n with
  | none =>
    obtain ⟨e, he, hkey⟩ := List.mem_map.1 hn
    exact absurd hkey (Entries.get?_eq_none_iff.1 hget e he)
  | some w =>
    rw [hget, Option.map_some, Option.map_eq_some_iff] at hsets
    exact hsets

theorem SetsEntries.of_not_mem {a : α} {n : String} (hn : Value.str n ∉ (toEntries a).map (·.1)) (v : Value) :
    set? a n v = none := by
  have hget : (toEntries a).get? n = none :=
    Entries.get?_eq_none_iff.2 fun e he hkey => hn (List.mem_map.2 ⟨e, he, hkey⟩)
  have hsets := h.sets a n v
  rw [hget, Option.map_none, Option.map_eq_none_iff] at hsets
  exact hsets

/-- Entries under known names are merged. -/
theorem setFields_of_known {a : α} {es : Entries} (hes : ∀ e ∈ es, e.1 ∈ (toEntries a).map (·.1)) :
    ∃ b, setFields set? a es = .ok b ∧ toEntries b = (toEntries a).merge es := by
  -- over all values set so far: their fields keep their names, so what is known stays known
  induction es generalizing a with
  | nil => exact ⟨a, rfl, rfl⟩
  | cons e es ih =>
    obtain ⟨k, v⟩ := e
    obtain ⟨hk, hrest⟩ := List.forall_mem_cons.1 hes
    obtain ⟨f, hf, hfk⟩ := List.mem_map.1 hk
    obtain ⟨n, hn⟩ := h.texts a f hf
    obtain rfl : k = .str n := hfk.symm.trans hn
    obtain ⟨b, hb, hset⟩ := h.of_mem hk v
    obtain ⟨c, hc, hmerge⟩ := ih (a := b) fun e he => by
      rw [hset]
      exact Entries.mem_keys_set.2 (.inr (hrest e he))
    refine ⟨c, ?_, hmerge.trans (by rw [hset]; rfl)⟩
    rw [setFields, hb]
    exact hc

/-- One under another name is of the wrong kind. -/
theorem setFields_of_unknown {a : α} {es : Entries} (hes : ¬ ∀ e ∈ es, e.1 ∈ (toEntries a).map (·.1)) :
    setFields set? a es = .error .wrongKind := by
  induction es generalizing a with
  | nil => exact absurd nofun hes
  | cons e es ih =>
    obtain ⟨k, v⟩ := e
    by_cases htext : ∃ n, k = .str n
    · obtain ⟨n, rfl⟩ := htext
      rw [setFields]
      by_cases hn : Value.str n ∈ (toEntries a).map (·.1)
      · obtain ⟨b, hb, hset⟩ := h.of_mem hn v
        rw [hb]
        refine ih fun hall => hes (List.forall_mem_cons.2 ⟨hn, fun e he => ?_⟩)
        have hkey := hall e he
        rw [hset, Entries.mem_keys_set] at hkey
        exact hkey.elim (fun heq => heq ▸ hn) id
      · rw [h.of_not_mem hn]
    · rw [setFields]
      rintro n _ ⟨⟩
      exact htext ⟨n, rfl⟩

end

/-! ## Sections -/

/-- The sections of settings, with the entries of each. -/
def sections (c : Config) : List (String × Entries) :=
  [("connection", c.connection.toEntries), ("query", c.query.toEntries), ("cli", c.command.toEntries)]

/-- Does an object have a section that is an object of known names, or none of this name? -/
def HasSection (data : Entries) (name : String) (known : Entries) : Prop :=
  ∀ v, data.get? name = some v → ∃ es, v = .dict es ∧ ∀ e ∈ es, e.1 ∈ known.map (·.1)

/-- What an object says in a section. -/
def said (data : Entries) (name : String) : Entries :=
  match data.get? name with
  | some (.dict es) => es
  | _ => []

section
variable {α : Type} {set? : α → String → Value → Option α} {toEntries : α → Entries}
  (h : SetsEntries set? toEntries) {a : α} {data : Entries} {name : String}
include h

theorem setFields_section (hdata : HasSection data name (toEntries a)) :
    ∃ b, sectionOf data name >>= setFields set? a = .ok b ∧
      toEntries b = (toEntries a).merge (said data name) := by
  rw [sectionOf, said]
  cases hget : data.get? name with
  | none => exact ⟨a, rfl, rfl⟩
  | some v =>
    obtain ⟨es, rfl, hes⟩ := hdata v hget
    exact setFields_of_known h hes

theorem setFields_section_of_not (hdata : ¬ HasSection data name (toEntries a)) :
    sectionOf data name >>= setFields set? a = .error .wrongKind := by
  rw [sectionOf]
  cases hget : data.get? name with
  | none => exact absurd (fun v hv => by rw [hget] at hv; cases hv) hdata
  | some v =>
    by_cases hv : ∃ es, v = .dict es
    · obtain ⟨es, rfl⟩ := hv
      refine setFields_of_unknown h fun hes => hdata fun w hw => ?_
      rw [hget] at hw
      cases hw
      exact ⟨es, rfl, hes⟩
    · cases v
      case dict es => exact absurd ⟨es, rfl⟩ hv
      all_goals rfl

end

/-- An object that describes settings: where it has sections, they are objects of known names. -/
def IsSettings (data : Entries) : Prop := ∀ s ∈ ({} : Config).sections, HasSection data s.1 s.2

/-- The settings that an object describes: in each section what it says, and the defaults for all else. -/
def Describes (data : Entries) (c : Config) : Prop :=
  c.sections = ({} : Config).sections.map fun s => (s.1, s.2.merge (said data s.1))

section
variable {data : Entries}

theorem isSettings_iff : IsSettings data ↔
    HasSection data "connection" ({} : ConnectionConfig).toEntries ∧
      HasSection data "query" ({} : QueryConfig).toEntries ∧
      HasSection data "cli" ({} : CommandConfig).toEntries := by
  simp [IsSettings, sections]

/-- The sections are read one after the other. -/
theorem ofValue_dict : ofValue (.dict data) = do
    let connection ← sectionOf data "connection" >>= setFields ConnectionConfig.set? {}
    let query ← sectionOf data "query" >>= setFields QueryConfig.set? {}
    let command ← sectionOf data "cli" >>= setFields CommandConfig.set? {}
    return { connection, query, command } := by
  simp only [ofValue, Value.entries, bind_assoc]
  rfl

theorem ofValue_of_isSettings (h : IsSettings data) :
    ∃ c, ofValue (.dict data) = .ok c ∧ Describes data c := by
  obtain ⟨hconnection, hquery, hcommand⟩ := isSettings_iff.1 h
  obtain ⟨connection, hconnection, hmerged⟩ := setFields_section setsEntries_connection hconnection
  obtain ⟨query, hquery, hmerged'⟩ := setFields_section setsEntries_query hquery
  obtain ⟨command, hcommand, hmerged''⟩ := setFields_section setsEntries_command hcommand
  refine ⟨{ connection, query, command }, ?_, ?_⟩
  · rw [ofValue_dict, hconnection, hquery, hcommand]
    rfl
  · simp only [Describes, sections, List.map_cons, List.map_nil, hmerged, hmerged', hmerged'']

theorem ofValue_of_not_isSettings (h : ¬ IsSettings data) : ofValue (.dict data) = .error .wrongKind := by
  rw [ofValue_dict]
  by_cases hconnection : HasSection data "connection" ({} : ConnectionConfig).toEntries
  · obtain ⟨connection, hread, -⟩ := setFields_section setsEntries_connection hconnection
    rw [hread]
    by_cases hquery : HasSection data "query" ({} : QueryConfig).toEntries
    · obtain ⟨query, hread, -⟩ := setFields_section setsEntries_query hquery
      have hcommand : ¬ HasSection data "cli" ({} : CommandConfig).toEntries := fun hcommand =>
        h (isSettings_iff.2 ⟨hconnection, hquery, hcommand⟩)
      rw [hread, setFields_section_of_not setsEntries_command hcommand]
      rfl
    · rw [setFields_section_of_not setsEntries_query hquery]
      rfl
  · rw [setFields_section_of_not setsEntries_connection hconnection]
    rfl

end

/-! ## Files -/

/-- Loading a file of this text ends with the fault: it holds a JSON value that is no object, or it is not
read for another reason than that it is not JSON. -/
inductive Stops (text : String) : Fault → Prop
  | other {v : Value} (hread : Json.read text = .ok v) (hv : ∀ data, v ≠ .dict data) : Stops text .noMember
  | unread {e : Unreadable} (hread : Json.read text = .error e) (he : e ≠ .json) : Stops text (.unreadable e)

/-- The settings that a file of this text should give: those that it describes, or else the defaults. -/
inductive Intended (text : String) : Config → Prop
  | described {data : Entries} {c : Config} (hread : Json.read text = .ok (.dict data))
    (hdata : IsSettings data) (hc : Describes data c) : Intended text c
  | default (h : ∀ data, Json.read text = .ok (.dict data) → ¬ IsSettings data) : Intended text {}

section
variable {text : String}

theorem ofFile_of_read {v : Value} (hread : Json.read text = .ok v) : ofFile (.ok text) =
    match ofValue v with
    | .ok c => .ok c
    | .error e => if e.spoilsSettings then .ok {} else .error e := by
  simp only [ofFile, bind, Except.bind, hread]
  rfl

theorem ofFile_of_unread {e : Unreadable} (hread : Json.read text = .error e) : ofFile (.ok text) =
    if (Fault.unreadable e).spoilsSettings then .ok {} else .error (.unreadable e) := by
  simp only [ofFile, bind, Except.bind, hread]
  rfl

theorem ofFile_of_stops {e : Fault} (h : Stops text e) : ofFile (.ok text) = .error e := by
  cases h with
  | @other v hread hv =>
    have hentries : ofValue v = .error .noMember := by
      cases v with
      | dict data => exact absurd rfl (hv data)
      | _ => rfl
    rw [ofFile_of_read hread, hentries]
    rfl
  | @unread e hread he =>
    have hspoils : (Fault.unreadable e).spoilsSettings = false := by
      cases e with
      | json => exact absurd rfl he
      | _ => rfl
    rw [ofFile_of_unread hread, hspoils]
    rfl

theorem ofFile_of_not_stops (h : ∀ e, ¬ Stops text e) :
    ∃ c, ofFile (.ok text) = .ok c ∧ Intended text c := by
  cases hread : Json.read text with
  | error e =>
    have hjson : e = .json := by
      by_contra he
      exact h _ (.unread hread he)
    subst hjson
    exact ⟨{}, ofFile_of_unread hread, .default fun data hdata => by rw [hread] at hdata; cases hdata⟩
  | ok v =>
    have hdict : ∃ data, v = .dict data := by
      by_contra hv
      exact h _ (.other hread fun data heq => hv ⟨data, heq⟩)
    obtain ⟨data, rfl⟩ := hdict
    by_cases hdata : IsSettings data
    · obtain ⟨c, hc, hdescribes⟩ := ofValue_of_isSettings hdata
      exact ⟨c, by rw [ofFile_of_read hread, hc], .described hread hdata hdescribes⟩
    · have hfile : ofFile (.ok text) = .ok {} := by
        rw [ofFile_of_read hread, ofValue_of_not_isSettings hdata]
        rfl
      refine ⟨{}, hfile, .default fun data' h' => ?_⟩
      rw [hread] at h'
      cases h'
      exact hdata

end

/-- What a variable says, if it is set and not empty, in the place of a value. -/
def overriding (given : Option String) (v : Value) : Value :=
  match given with
  | none | some "" => v
  | some s => .str s

/-- The settings with what the environment says of the connection. -/
def overridden (c : Config) (w : Workplace) : Config :=
  { c with
    connection :=
      { c.connection with
        url := overriding (w.environment.lookup "COUCHQUERY_URL") c.connection.url
        database := overriding (w.environment.lookup "COUCHQUERY_DATABASE") c.connection.database } }

theorem overriding_eq (given : Option String) (v : Value) :
    overriding given v = ((given.filter (!·.isEmpty)).map .str).getD v := by
  unfold overriding
  split
  · rfl
  · rfl
  · next s hs =>
    have hempty : s.isEmpty = false := String.isEmpty_eq_false_iff.2 hs
    simp [Option.filter, hempty]

section
variable {w : Workplace} {path : Path} {text : String}

theorem run_withEnvironment (c : Config) : w.run c.withEnvironment = (.ok (c.overridden w), w) := by
  rw [overridden, overriding_eq, overriding_eq]
  rfl

theorem exists_of_read (h : w.disk.read path = .ok text) : w.disk.exists path = true := by
  rw [Disk.read, Fault.bind_eq_ok_iff] at h
  obtain ⟨place, hplace, hread⟩ := h
  rw [Disk.exists, hplace]
  cases hat : w.disk.at? place with
  | none => simp [hat] at hread
  | some content => simp [hat]

/-- Loading the settings in a file does nothing to the surroundings. -/
theorem run_load (h : w.disk.read path = .ok text) :
    w.run (load path) = ((ofFile (.ok text)).map (·.overridden w), w) := by
  have hexists : w.run (Program.demand (.exists path)) = (.ok true, w) := by
    rw [← exists_of_read h]
    rfl
  have hread : w.run (Program.demand (.read path)) = (.ok (.ok text), w) := by
    rw [← h]
    rfl
  rw [load, Workplace.run_bind, hexists]
  simp only [if_true]
  rw [Workplace.run_bind, hread]
  simp only
  rw [Workplace.run_bind]
  cases hfile : ofFile (.ok text) with
  | error e => rfl
  | ok c => exact run_withEnvironment c

/-- Where a file can be read, loading it gives the settings that it should give, with what the environment
says of the connection, if and only if its text does not stop the loading. Otherwise this ends with the
fault. -/
theorem load_intended_iff (h : w.disk.read path = .ok text) :
    ((∃ c, Intended text c ∧ w.run (load path) = (.ok (c.overridden w), w)) ↔ ∀ e, ¬ Stops text e) ∧
      ∀ e, Stops text e → w.run (load path) = (.error e, w) := by
  rw [run_load h]
  refine ⟨⟨fun ⟨c, _, hc⟩ e he => ?_, fun hstops => ?_⟩, fun e he => by rw [ofFile_of_stops he]; rfl⟩
  · rw [ofFile_of_stops he] at hc
    cases hc
  · obtain ⟨c, hc, hintended⟩ := ofFile_of_not_stops hstops
    exact ⟨c, hintended, by rw [hc]; rfl⟩

end

/-- A workplace with a file of settings of a text, and a variable for the address of the store. -/
def desk (text : String) : Workplace where
  disk := { contents := [(["settings.json"], .file text)] }
  environment := [("COUCHQUERY_URL", "http://school:5984"), ("COUCHQUERY_DATABASE", "")]
  link := { backend := .memory {} }

/-- The settings that name a database. -/
def schoolData : Entries := [(.str "connection", .dict [(.str "database", .str "school")])]

/-- The text of these settings. -/
def schoolText : String := "\x7b\"connection\": \x7b\"database\": \"school\"\x7d\x7d"

theorem read_schoolText : Json.read schoolText = .ok (.dict schoolData) := by
  have hmember (name : String) {text : List Char} {v : Value} (hname : Text.Whole name)
      (hv : Json.Spells text v) :
      Json.Spells ('\x7b' :: (Json.quote name.toList ++ ':' :: ' ' :: text ++ ['\x7d']))
        (.dict [(.str name, v)]) :=
    Json.spells_dict (.cons ⟨name, text, rfl, hname, rfl, hv⟩ .nil) (Entries.Named.nil.cons rfl)
  have hdatabase := hmember "database" ⟨by decide, by decide⟩
    (Json.spells_str (s := "school") ⟨by decide, by decide⟩)
  exact (hmember "connection" ⟨by decide, by decide⟩ hdatabase).readWithin_eq (by decide)

theorem not_stops_schoolText (e : Fault) : ¬ Stops schoolText e := by
  rintro (⟨hread, hv⟩ | ⟨hread, -⟩)
  · rw [read_schoolText] at hread
    cases hread
    exact hv _ rfl
  · rw [read_schoolText] at hread
    cases hread

/-- The file gives the database and a variable the address. All else is as by default. -/
theorem load_school : ∃ c, Intended schoolText c ∧
    (desk schoolText).run (load { parts := ["settings.json"] }) =
      (.ok (c.overridden (desk schoolText)), desk schoolText) ∧
    c.overridden (desk schoolText) =
      { connection := { url := .str "http://school:5984", database := .str "school" } } := by
  have hread : (desk schoolText).disk.read { parts := ["settings.json"] } = .ok schoolText := rfl
  have hfile : ofFile (.ok schoolText) = .ok { connection := { database := .str "school" } } := by
    rw [ofFile_of_read read_schoolText]
    simp only [schoolData, ofValue_dict, sectionOf, Entries.get?_cons_str, Entries.get?_nil, String.reduceEq, if_true,
      if_false]
    rfl
  obtain ⟨c, hc, hrun⟩ := (load_intended_iff hread).1.2 not_stops_schoolText
  refine ⟨c, hc, hrun, ?_⟩
  rw [run_load hread, hfile, Except.map, Prod.mk.injEq, Except.ok.injEq] at hrun
  exact hrun.1.symm

/-- An empty list is JSON but no object. Loading it ends with a fault, where the defaults were right. -/
theorem load_empty_list : Intended "[]" {} ∧
    (desk "[]").run (load { parts := ["settings.json"] }) = (.error .noMember, desk "[]") := by
  have hfile : (desk "[]").disk.read { parts := ["settings.json"] } = .ok "[]" := rfl
  have hread : Json.read "[]" = .ok (.list []) := (Json.spells_list .nil).readWithin_eq (by decide)
  refine ⟨.default fun data hdata => ?_, ?_⟩
  · rw [hread] at hdata
    cases hdata
  · rw [run_load hfile, ofFile_of_stops (.other hread nofun)]
    rfl

end ViewFinder.Config
