import ResourceAccess.Payload.Tables

/-!
# Reading what was written

What callers send and what is kept is written as JSON with all its fields, and read with fields in any order, with
fields that nobody knows, and with optional fields left out.  Nothing is lost in writing, so reading twice is reading
once.  A null and no field at all mean the same where a field is optional.

* `Payload.Codec`: reading undoes writing
* `Payload.Lenient`: fields that do not matter
* `Payload.Shape.Voids`: a null is taken for a field, at whatever place it stands
* `Payload.Shape.lenient`: a record of a shape is read by its known fields, and by those that are set
* `Payload.coding_stable`: **all that is read and written is read back, and read leniently**
-/

namespace ResourceAccess

namespace Payload

variable {α β : Type}

/-! ## What is promised -/

/-- Reading undoes writing.  So what was read is read again when it is written, and once written it stays as it is. -/
structure Codec (ofJson : Json → Decoded α) (toJson : α → Json) : Prop where
  read_written : ∀ a, ofJson (toJson a) = .ok a
  read_again : ∀ j a, ofJson j = .ok a → ofJson (toJson a) = .ok a
  normal : ∀ j j', (ofJson j).map toJson = .ok j' → (ofJson j').map toJson = .ok j'

def withFields (more fields : List (String × Json)) : List (String × Json) :=
  more.foldl (fun sorted field => Json.insertField field.1 field.2 sorted) fields

/-- Fields that are not known may be added, and optional fields that are null may be left out.  What is read, or why
nothing is, stays the same. -/
structure Lenient (ofJson : Json → Decoded α) (known optional : List String) : Prop where
  unknown : ∀ fields more, (∀ field ∈ more, field.1 ∉ known) →
    ofJson (.object (withFields more fields)) = ofJson (.object fields)
  null : ∀ fields name, (fields.map (·.1)).Nodup → name ∈ optional → (name, .null) ∈ fields →
    ofJson (.object (fields.filter (·.1 != name))) = ofJson (.object fields)

/-! ## Single values -/

variable {decode : Json → Decoded α} {encode : α → Json}

theorem codec_of_read (h : ∀ a, decode (encode a) = .ok a) : Codec decode encode where
  read_written := h
  read_again := fun _ a _ => h a
  normal := by
    intro j j' hj
    cases hread : decode j with
    | error error =>
      rw [hread] at hj
      exact absurd hj (by simp [Except.map])
    | ok a =>
      rw [hread] at hj
      obtain rfl : encode a = j' := Except.ok.inj hj
      rw [h]
      rfl

@[simp] theorem text_string (s : String) : text (.string s) = .ok s := rfl

@[simp] theorem flag_bool (b : Bool) : flag (.bool b) = .ok b := rfl

@[simp] theorem kind_toJson (kind : SubjectKind) : Payload.kind kind.toJson = .ok kind := by
  cases kind <;> rfl

theorem optional_ofOption (hread : ∀ a, decode (encode a) = .ok a) (hset : ∀ a, encode a ≠ .null) (o : Option α) :
    optional decode (.ofOption encode o) = .ok o := by
  cases o with
  | none => rfl
  | some a =>
    have hsome : optional decode (encode a) = (decode (encode a)).map some := by
      unfold optional
      split
      · rename_i hnull
        exact absurd hnull (hset a)
      · rfl
    rw [Json.ofOption, hsome, hread]
    rfl

theorem list_map (hread : ∀ a, decode (encode a) = .ok a) (items : List α) :
    list decode (.array (items.map encode)) = .ok items := by
  rw [list]
  induction items with
  | nil => rfl
  | cons a rest ih =>
    rw [List.map_cons, List.mapM_cons, hread, ih]
    rfl

end Payload

open Payload

@[simp] theorem Id.ofJson_toJson (id : Id) : Id.ofJson id.toJson = .ok id := rfl

@[simp] theorem Stamp.ofJson_toJson (s : Stamp) : Stamp.ofJson s.toJson = .ok s := rfl

@[simp] theorem Path.ofJson_toJson (p : Path) : Path.ofJson p.toJson = .ok p := congrArg Except.ok (ofString_text p)

@[simp] theorem optional_string (o : Option String) : optional text (.ofOption .string o) = .ok o :=
  optional_ofOption text_string (by simp) o

@[simp] theorem optional_bool (o : Option Bool) : optional flag (.ofOption .bool o) = .ok o :=
  optional_ofOption flag_bool (by simp) o

@[simp] theorem optional_id (o : Option Id) : optional Id.ofJson (.ofOption Id.toJson o) = .ok o :=
  optional_ofOption Id.ofJson_toJson (by simp [Id.toJson]) o

@[simp] theorem optional_path (o : Option Path) : optional Path.ofJson (.ofOption Path.toJson o) = .ok o :=
  optional_ofOption Path.ofJson_toJson (by simp [Path.toJson]) o

/-! ## Records -/

namespace Payload

theorem filter_insertField {keep : String → Bool} {name : String} (hname : keep name = false) (value : Json)
    (fields : List (String × Json)) :
    (Json.insertField name value fields).filter (keep ·.1) = fields.filter (keep ·.1) := by
  induction fields with
  | nil => simp [Json.insertField, hname]
  | cons field rest ih =>
    rw [Json.insertField]
    split
    · rename_i heq
      simp [← heq, hname]
    · split
      · simp [hname]
      · rw [List.filter_cons, ih, List.filter_cons]

theorem filter_withFields {keep : String → Bool} {more : List (String × Json)}
    (hmore : ∀ field ∈ more, keep field.1 = false) (fields : List (String × Json)) :
    (withFields more fields).filter (keep ·.1) = fields.filter (keep ·.1) := by
  induction more generalizing fields with
  | nil => rfl
  | cons field rest ih =>
    obtain ⟨hfield, hrest⟩ := List.forall_mem_cons.mp hmore
    exact (ih hrest _).trans (filter_insertField hfield _ _)

namespace Shape

variable {α β : Type} {shape : Shape α} {finish : Form → α → Decoded β} {field : String} {void same : α → α}
  {values before after fields : List (String × Json)}

/-- A null is taken for the field, and what is put into the other slots does not depend on it. -/
structure Voids (shape : Shape α) (field : String) (void : α → α) : Prop where
  put_null : ∀ s, shape.put field .null s = .ok (void s)
  comm : ∀ other j s, other ≠ field → shape.put other j (void s) = (shape.put other j s).map void

def putFrom (shape : Shape α) (values : List (String × Json)) (s : α) : Decoded α :=
  values.foldlM (fun slots field => shape.put field.1 field.2 slots) s

theorem putFrom_cons (field : String × Json) (s : α) :
    shape.putFrom (field :: values) s = (shape.put field.1 field.2 s).bind (shape.putFrom values) := by
  rw [putFrom, List.foldlM_cons]
  rfl

/-- A null may as well come first. -/
theorem Voids.putFrom_null (h : shape.Voids field void) (hbefore : ∀ f ∈ before, f.1 ≠ field)
    (after : List (String × Json)) (s : α) :
    shape.putFrom (before ++ (field, .null) :: after) s = shape.putFrom (before ++ after) (void s) := by
  induction before generalizing s with
  | nil =>
    rw [List.nil_append, putFrom_cons, h.put_null]
    rfl
  | cons first rest ih =>
    obtain ⟨hfirst, hrest⟩ := List.forall_mem_cons.mp hbefore
    rw [List.cons_append, List.cons_append, putFrom_cons, putFrom_cons, h.comm _ _ _ hfirst]
    cases shape.put first.1 first.2 s with
    | error error => rfl
    | ok t => exact ih hrest t

/-- What each value leaves alone, all of them do. -/
theorem putFrom_map (h : ∀ f ∈ values, ∀ s, shape.put f.1 f.2 (same s) = (shape.put f.1 f.2 s).map same) (s : α) :
    shape.putFrom values (same s) = (shape.putFrom values s).map same := by
  induction values generalizing s with
  | nil => rfl
  | cons first rest ih =>
    obtain ⟨hfirst, hrest⟩ := List.forall_mem_cons.mp h
    rw [putFrom_cons, putFrom_cons, hfirst]
    cases shape.put first.1 first.2 s with
    | error error => rfl
    | ok t => exact ih hrest t

/-- A field is optional if the blank slots are as good without a null for it. -/
structure Optional (shape : Shape α) (finish : Form → α → Decoded β) (field : String) (void : α → α) : Prop
    extends shape.Voids field void where
  mem_fields : field ∈ shape.fields
  finish_blank : ∀ values : List (String × Json), (∀ f ∈ values, f.1 ≠ field) →
    (shape.putFrom values (void shape.blank)).bind (finish .object) =
      (shape.putFrom values shape.blank).bind (finish .object)

theorem read_object : shape.read finish (.object fields) =
    (shape.putFrom (fields.filter (shape.fields.contains ·.1)) shape.blank).bind (finish .object) := rfl

/-- Where a field is optional, a null for it may be left out. -/
theorem Optional.read_null (h : shape.Optional finish field void) (hnodup : (fields.map (·.1)).Nodup)
    (hnull : (field, .null) ∈ fields) :
    shape.read finish (.object (fields.filter (·.1 != field))) = shape.read finish (.object fields) := by
  obtain ⟨before, after, rfl⟩ := List.append_of_mem hnull
  rw [List.map_append, List.map_cons, List.nodup_append, List.nodup_cons] at hnodup
  obtain ⟨-, ⟨hafterNot, -⟩, hapart⟩ := hnodup
  have hbefore : ∀ f ∈ before, f.1 ≠ field := fun f hf => hapart _ (List.mem_map_of_mem hf) _ List.mem_cons_self
  have hafter : ∀ f ∈ after, f.1 ≠ field := fun f hf heq => hafterNot (List.mem_map.mpr ⟨f, hf, heq⟩)
  have hothers : (before ++ (field, .null) :: after).filter (·.1 != field) = before ++ after := by
    rw [List.filter_append, List.filter_cons_of_neg (by simp), List.filter_eq_self.mpr (by simpa using hbefore),
      List.filter_eq_self.mpr (by simpa using hafter)]
  have hknown : shape.fields.contains field = true := List.contains_iff_mem.mpr h.mem_fields
  have hvalues : ∀ f ∈ (before ++ after).filter (shape.fields.contains ·.1), f.1 ≠ field := by
    intro f hf
    exact (List.mem_append.mp (List.mem_filter.mp hf).1).elim (hbefore f) (hafter f)
  have hsplit : (before ++ (field, .null) :: after).filter (shape.fields.contains ·.1) =
      before.filter (shape.fields.contains ·.1) ++ (field, .null) :: after.filter (shape.fields.contains ·.1) := by
    rw [List.filter_append, List.filter_cons_of_pos (by exact hknown)]
  rw [hothers, read_object, read_object, hsplit, h.putFrom_null fun f hf => hbefore f (List.mem_filter.mp hf).1,
    ← List.filter_append, h.finish_blank _ hvalues]

theorem bind_comm {x : Decoded β} {first second : β → α} (h : ∀ b, first b = void (second b)) :
    (x >>= fun b => pure (first b)) = (x >>= fun b => pure (second b)).map void := by
  cases x with
  | error error => rfl
  | ok b => exact congrArg Except.ok (h b)

/-- A null that leaves the blank slots as they are says nothing. -/
theorem Voids.optional (h : shape.Voids field void) (hfield : field ∈ shape.fields)
    (hblank : void shape.blank = shape.blank) : shape.Optional finish field void where
  toVoids := h
  mem_fields := hfield
  finish_blank values _ := by rw [hblank]

/-- A record of a shape is read by its known fields, and by those of the optional ones that are set. -/
theorem lenient {optional : List String} (h : ∀ field ∈ optional, ∃ void, shape.Optional finish field void) :
    Lenient (shape.read finish) shape.fields optional where
  unknown fields more hmore := by
    have hunknown : ∀ field ∈ more, shape.fields.contains field.1 = false := by simpa using hmore
    rw [read_object, read_object, filter_withFields hunknown]
  null fields name hnodup hname hnull := by
    obtain ⟨void, hvoid⟩ := h name hname
    exact hvoid.read_null hnodup hnull

end Shape

end Payload

/-! ### Each record

Each field is read into a slot of its own, so a null for one slot is no matter for the others. -/

open Payload.Shape (bind_comm)

section Naming

variable {α : Type} (title : String) (make : Naming → α)

theorem readNaming_toJson (n : Naming) : readNaming title make n.toJson = .ok (make n) := by
  simp [readNaming, Naming.toJson, namingShape, Shape.read, Shape.putAll, bind, Except.bind, pure, Except.pure]

theorem namingShape_voids : (namingShape title).Voids "name" (fun n => { n with name := none }) ∧
    (namingShape title).Voids "description" (fun n => { n with description := none }) := by
  refine ⟨⟨fun _ => rfl, ?_⟩, ⟨fun _ => rfl, ?_⟩⟩
  all_goals
    intro other j n hother
    simp only [namingShape]
    split <;> first | exact absurd rfl hother | exact bind_comm fun _ => rfl | rfl

theorem readNaming_lenient : Lenient (readNaming title make) ["name", "description"] ["name", "description"] := by
  have hfields : (namingShape title).fields = ["name", "description"] := rfl
  show Lenient ((namingShape title).read fun _ n => .ok (make n)) (namingShape title).fields ["name", "description"]
  obtain ⟨hname, hdescription⟩ := namingShape_voids title
  refine Shape.lenient (List.forall_mem_cons.mpr ⟨⟨_, hname.optional (by simp [hfields]) rfl⟩, ?_⟩)
  exact List.forall_mem_singleton.mpr ⟨_, hdescription.optional (by simp [hfields]) rfl⟩

end Naming

namespace AceUpdate

theorem ofJson_toJson (u : AceUpdate) : AceUpdate.ofJson u.toJson = .ok u := by
  simp [ofJson, toJson, shape, Shape.read, Shape.putAll, bind, Except.bind, pure, Except.pure]

theorem voids : shape.Voids "path" (fun u => { u with path := none }) ∧
    shape.Voids "role_id" (fun u => { u with role := none }) ∧
    shape.Voids "allowed" (fun u => { u with allowed := none }) ∧
    shape.Voids "propagate" (fun u => { u with propagates := none }) := by
  refine ⟨⟨fun _ => rfl, ?_⟩, ⟨fun _ => rfl, ?_⟩, ⟨fun _ => rfl, ?_⟩, ⟨fun _ => rfl, ?_⟩⟩
  all_goals
    intro other j u hother
    simp only [shape]
    split <;> first | exact absurd rfl hother | exact bind_comm fun _ => rfl | rfl

theorem lenient : Lenient AceUpdate.ofJson ["path", "role_id", "allowed", "propagate"]
    ["path", "role_id", "allowed", "propagate"] := by
  show Lenient (shape.read fun _ u => .ok u) shape.fields ["path", "role_id", "allowed", "propagate"]
  obtain ⟨hpath, hrole, hallowed, hpropagates⟩ := voids
  refine Shape.lenient fun field hfield => ?_
  simp only [List.mem_cons, List.not_mem_nil, or_false] at hfield
  rcases hfield with rfl | rfl | rfl | rfl
  · exact ⟨_, hpath.optional (by decide) rfl⟩
  · exact ⟨_, hrole.optional (by decide) rfl⟩
  · exact ⟨_, hallowed.optional (by decide) rfl⟩
  · exact ⟨_, hpropagates.optional (by decide) rfl⟩

end AceUpdate

namespace NewAce

theorem ofJson_toJson (n : NewAce) : NewAce.ofJson n.toJson = .ok n := by
  have hslots : ofSlots .object ⟨some n.path, some n.kind, n.user, n.group, some n.role, n.allowed, n.propagates⟩ =
    .ok n := rfl
  simp [ofJson, toJson, shape, Shape.read, Shape.putAll, bind, Except.bind, pure, Except.pure, hslots]

theorem voids : shape.Voids "user_id" (fun s => { s with user := none }) ∧
    shape.Voids "group_id" (fun s => { s with group := none }) ∧
    shape.Voids "allowed" (fun s => { s with allowed := none }) ∧
    shape.Voids "propagate" (fun s => { s with propagates := none }) := by
  refine ⟨⟨fun _ => rfl, ?_⟩, ⟨fun _ => rfl, ?_⟩, ⟨fun _ => rfl, ?_⟩, ⟨fun _ => rfl, ?_⟩⟩
  all_goals
    intro other j s hother
    simp only [shape]
    split <;> first | exact absurd rfl hother | exact bind_comm fun _ => rfl | rfl

theorem lenient : Lenient NewAce.ofJson
    ["path", "ace_type", "user_id", "group_id", "role_id", "allowed", "propagate"]
    ["user_id", "group_id", "allowed", "propagate"] := by
  show Lenient (shape.read ofSlots) shape.fields ["user_id", "group_id", "allowed", "propagate"]
  obtain ⟨huser, hgroup, hallowed, hpropagates⟩ := voids
  refine Shape.lenient fun field hfield => ?_
  simp only [List.mem_cons, List.not_mem_nil, or_false] at hfield
  rcases hfield with rfl | rfl | rfl | rfl
  · exact ⟨_, huser.optional (by decide) rfl⟩
  · exact ⟨_, hgroup.optional (by decide) rfl⟩
  · exact ⟨_, hallowed.optional (by decide) rfl⟩
  · exact ⟨_, hpropagates.optional (by decide) rfl⟩

end NewAce

theorem Privilege.ofJson_toJson (p : Privilege) : Privilege.ofJson p.toJson = .ok p := by
  have hslots : ofSlots .object ⟨some p.id, some p.name, some p.description, some p.created, some p.updated⟩ =
    .ok p := rfl
  simp [ofJson, toJson, shape, Shape.read, Shape.putAll, bind, Except.bind, pure, Except.pure, hslots]

namespace Role

theorem ofJson_toJson (r : Role) : Role.ofJson r.toJson = .ok r := by
  have hslots : ofSlots .object ⟨some r.id, some r.name, some r.description, some r.builtin, some r.created,
    some r.updated, some r.privileges⟩ = .ok r := rfl
  simp [ofJson, toJson, shape, Shape.read, Shape.putAll, bind, Except.bind, pure, Except.pure,
    list_map Privilege.ofJson_toJson, hslots]

theorem voids : shape.Voids "description" fun s => { s with description := some none } := by
  refine ⟨fun _ => rfl, ?_⟩
  intro other j s hother
  simp only [shape]
  split <;> first | exact absurd rfl hother | exact bind_comm fun _ => rfl | rfl

theorem optional_description :
    shape.Optional ofSlots "description" fun s => { s with description := some none } where
  toVoids := voids
  mem_fields := by decide
  finish_blank values hvalues := by
    have hsame : ∀ f ∈ values, ∀ s : Slots, shape.put f.1 f.2 { s with description := some (s.description.getD none) } =
        (shape.put f.1 f.2 s).map fun s => { s with description := some (s.description.getD none) } := by
      intro f hf s
      have hother := hvalues f hf
      simp only [shape]
      split <;> first | exact absurd ‹_› hother | exact bind_comm fun _ => rfl | rfl
    have hblank : ({ shape.blank with description := some none } : Slots) =
      { shape.blank with description := some (shape.blank.description.getD none) } := rfl
    rw [hblank, Shape.putFrom_map hsame]
    cases shape.putFrom values shape.blank <;> rfl

theorem lenient : Lenient Role.ofJson
    ["role_id", "name", "description", "is_builtin", "created_at", "updated_at", "privileges"] ["description"] := by
  show Lenient (shape.read ofSlots) shape.fields ["description"]
  exact Shape.lenient (List.forall_mem_singleton.mpr ⟨_, optional_description⟩)

end Role

/-! ### Entries -/

section Entries

variable {j : Json} {a : Ace}

theorem under_of_field {α : Type} {name : String} {decode : Json → Decoded α} {value : Json} {x : α}
    (hfield : j.field? name = some value) (hvalue : decode value = .ok x) : under name decode j = .ok x := by
  rw [under, hfield]
  exact hvalue

/-- The word of the kind tells which column to read. -/
theorem Subject.ofJson_of_fields (h : ∀ name, j.field? name = a.toJson.field? name) :
    Subject.ofJson j = .ok a.subject := by
  have hkind : under "ace_type" Payload.kind j = .ok a.subject.kind := under_of_field (h _) (kind_toJson _)
  cases hsubject : a.subject with
  | user id =>
    have huser : under "user_id" Id.ofJson j = .ok id := under_of_field (h _) (by rw [hsubject]; rfl)
    rw [hsubject] at hkind
    simp only [Subject.ofJson, hkind, huser, bind, Except.bind, kind]
    rfl
  | group id =>
    have hgroup : under "group_id" Id.ofJson j = .ok id := under_of_field (h _) (by rw [hsubject]; rfl)
    rw [hsubject] at hkind
    simp only [Subject.ofJson, hkind, hgroup, bind, Except.bind, kind]
    rfl

theorem Ace.ofJson_of_fields (h : ∀ name, j.field? name = a.toJson.field? name) : Ace.ofJson j = .ok a := by
  have hid : under "ace_id" Id.ofJson j = .ok a.id := under_of_field (h _) rfl
  have hpath : under "path" Path.ofJson j = .ok a.path := under_of_field (h _) (Path.ofJson_toJson _)
  have hrole : under "role_id" Id.ofJson j = .ok a.role := under_of_field (h _) rfl
  have hallowed : under "allowed" flag j = .ok a.allowed := under_of_field (h _) rfl
  have hpropagates : under "propagate" flag j = .ok a.propagates := under_of_field (h _) rfl
  have hcreated : under "created_at" Stamp.ofJson j = .ok a.created := under_of_field (h _) rfl
  have hupdated : under "updated_at" Stamp.ofJson j = .ok a.updated := under_of_field (h _) rfl
  simp only [Ace.ofJson, hid, hpath, Subject.ofJson_of_fields h, hrole, hallowed, hpropagates, hcreated, hupdated,
    bind, Except.bind]
  rfl

end Entries

/-- **All that callers send and that is shown of a role is read as it is written.**  Writing loses nothing, so what has
been read and written once stays as it is.  Fields that nobody knows may be added to a record, and a null may be left
out where a field is optional, and what is read stays the same, and so does the error if nothing is. -/
theorem Payload.coding_stable :
    Codec RoleUpdate.ofJson RoleUpdate.toJson ∧ Codec PrivilegeUpdate.ofJson PrivilegeUpdate.toJson ∧
    Codec AceUpdate.ofJson AceUpdate.toJson ∧ Codec NewAce.ofJson NewAce.toJson ∧
    Codec Role.ofJson Role.toJson ∧ Codec Payload.kind SubjectKind.toJson ∧
    Lenient RoleUpdate.ofJson ["name", "description"] ["name", "description"] ∧
    Lenient PrivilegeUpdate.ofJson ["name", "description"] ["name", "description"] ∧
    Lenient AceUpdate.ofJson ["path", "role_id", "allowed", "propagate"]
      ["path", "role_id", "allowed", "propagate"] ∧
    Lenient NewAce.ofJson ["path", "ace_type", "user_id", "group_id", "role_id", "allowed", "propagate"]
      ["user_id", "group_id", "allowed", "propagate"] ∧
    Lenient Role.ofJson ["role_id", "name", "description", "is_builtin", "created_at", "updated_at", "privileges"]
      ["description"] :=
  ⟨codec_of_read fun _ => readNaming_toJson _ _ _, codec_of_read fun _ => readNaming_toJson _ _ _,
    codec_of_read AceUpdate.ofJson_toJson, codec_of_read NewAce.ofJson_toJson, codec_of_read Role.ofJson_toJson,
    codec_of_read kind_toJson, readNaming_lenient _ _, readNaming_lenient _ _, AceUpdate.lenient, NewAce.lenient,
    Role.lenient⟩

end ResourceAccess
