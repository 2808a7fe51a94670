import PipelineOperator.Proofs.Json.Shape

/-!
Records that are written and read part by part. A part is read of the members of its name alone, and
what it makes of them and of their absence is its own affair (`Json.Part`); a record is read by its
parts in the order of their names (`Json.Reading`). So a law of records is proved once, by induction
on the parts, and a type round-trips as soon as its parts are listed (`Json.RoundTrips.record`).
-/

set_option autoImplicit false
set_option relaxedAutoImplicit false

namespace PipelineOperator

namespace Json

open Shape

variable {α β : Type} {defaults : Members} {optionals : List String} {parts : List (String × Shape)}

/-- A part of a record: it is read of the members of its name and written as one of them at most. -/
structure Part (defaults : Members) (optionals : List String) (parts : List (String × Shape))
    (name : String) (read : Members → Option β) (write : β → Members) : Prop where
  reads : ∀ (value : β) {before after : Members}, name ∉ (before ++ after).map Prod.fst →
    read (before ++ write value ++ after) = some value
  isExact : ∀ value, isExactMembers (write value) = true
  names : ∀ value, ((write value).map Prod.fst).Sublist [name]
  /-- Other members do not matter. -/
  elsewhere : ∀ {before after : Members} {other : String} {document : Json}, other ≠ name →
    read (before ++ (other, document) :: after) = read (before ++ after)
  /-- A missing member is read like its substitute. -/
  substituted : ∀ {document : Json} {before after : Members},
    (name, document) ∈ substitutes defaults optionals → name ∉ (before ++ after).map Prod.fst →
      read (before ++ (name, document) :: after) = read (before ++ after)
  /-- A missing member that is optional is not written. -/
  omitted : ∀ {members : Members} {value : β}, name ∈ optionals → read members = some value →
    name ∉ members.map Prod.fst → write value = []
  /-- A missing member may be missing. -/
  given : ∀ {members : Members} {value : β}, read members = some value →
    name ∈ members.map Prod.fst ∨ name ∈ (substitutes defaults optionals).map Prod.fst
  /-- However a part of its own shape is filled, it is read alike. -/
  alike : ∀ {shape : Shape} {document document' : Json} {before after : Members},
    (name, shape) ∈ parts → shape.Fills document document' →
      name ∉ (before ++ after).map Prod.fst →
        read (before ++ (name, document') :: after) = read (before ++ (name, document) :: after)
  /-- What such a part leaves out is left out of what is written of it. -/
  kept : ∀ {shape : Shape} {members : Members} {value : β} {document : Json} {path : List Step},
    (name, shape) ∈ parts → read members = some value → occurrences name members ≤ 1 →
      lookup name members = some document → shape.Omits path document →
        ∃ written, (name, written) ∈ write value ∧ shape.Omits path written

namespace Part

variable {name : String} {encode : β → Json} {decode : Json → Option β}

/-- A part that has to be there. -/
theorem required (h : Lossless encode decode)
    (hname : name ∉ defaults.map Prod.fst ∧ name ∉ optionals ∧ name ∉ parts.map Prod.fst) :
    Part defaults optionals parts name (fun members ↦ members.required name decode)
      (fun value ↦ [(name, encode value)]) where
  reads value before after habsent := by
    rw [List.append_assoc, List.singleton_append, Members.required, lookup_insert_self habsent]
    exact h.decode_encode value
  isExact := h.isExact_member name
  names _ := List.Sublist.refl _
  elsewhere hother := Members.required_insert_of_ne hother.symm
  substituted hdocument := by
    rcases mem_names_substitutes.mp (List.mem_map_of_mem hdocument) with hdefault | hoptional
    · exact absurd hdefault hname.1
    · exact absurd hoptional hname.2.1
  omitted hoptional := absurd hoptional hname.2.1
  given hread := .inl (Members.mem_names_of_required hread)
  alike hpart := absurd (List.mem_map_of_mem hpart) hname.2.2
  kept hpart := absurd (List.mem_map_of_mem hpart) hname.2.2

variable {fallback : β}

/-- A part with a default, if it heeds the shapes that it is to have. -/
theorem defaultedOf (h : Lossless encode decode)
    (hparts : ∀ shape, (name, shape) ∈ parts →
      shape.FillsAlike decode ∧ shape.StaysOmitted encode decode)
    (hname : (name ∈ defaults.map Prod.fst ∧ name ∉ optionals) ∧
      ∀ m ∈ defaults, m.1 = name → decode m.2 = some fallback) :
    Part defaults optionals parts name (fun members ↦ members.defaulted name fallback decode)
      (fun value ↦ [(name, encode value)]) where
  reads value before after habsent := by
    rw [List.append_assoc, List.singleton_append, Members.defaulted_insert_self habsent]
    exact h.decode_encode value
  isExact := h.isExact_member name
  names _ := List.Sublist.refl _
  elsewhere hother := Members.defaulted_insert_of_ne hother.symm
  substituted hdocument habsent := by
    rw [Members.defaulted_insert_self habsent, Members.defaulted_of_notMem habsent]
    rcases List.mem_append.mp hdocument with hvalue | hnull
    · exact hname.2 _ hvalue rfl
    · obtain ⟨other, hoptional, hother⟩ := List.mem_map.mp hnull
      obtain rfl : other = name := congrArg Prod.fst hother
      exact absurd hoptional hname.1.2
  omitted hoptional := absurd hoptional hname.1.2
  given _ := .inr (mem_names_substitutes.mpr (.inl hname.1.1))
  alike hpart hfills habsent := by
    rw [Members.defaulted_insert_self habsent, Members.defaulted_insert_self habsent]
    exact (hparts _ hpart).1 hfills
  kept hpart hread _ hlookup homits := by
    rw [Members.defaulted_of_lookup hlookup] at hread
    exact ⟨_, List.mem_singleton_self _, (hparts _ hpart).2 hread homits⟩

/-- An optional part, if it heeds the shapes that it is to have. -/
theorem optionalOf (h : Lossless encode decode)
    (hparts : ∀ shape, (name, shape) ∈ parts →
      shape.FillsAlike decode ∧ shape.StaysOmitted encode decode)
    (hname : name ∈ optionals ∧ name ∉ defaults.map Prod.fst) :
    Part defaults optionals parts name (fun members ↦ members.optional name decode)
      (member? name encode) where
  reads found before after habsent := by
    cases found with
    | none =>
      rw [member?, List.append_nil]
      exact Members.optional_of_notMem habsent
    | some value =>
      rw [member?, List.append_assoc, List.singleton_append,
        Members.optional_insert_self habsent]
      exact h.nullable value
  isExact found := by
    cases found with
    | none => rfl
    | some value => exact h.isExact_member name value
  names found := by
    cases found with
    | none => exact List.nil_sublist _
    | some value => exact List.Sublist.refl _
  elsewhere hother := Members.optional_insert_of_ne hother.symm
  substituted hdocument habsent := by
    rw [Members.optional_insert_self habsent, Members.optional_of_notMem habsent]
    rcases List.mem_append.mp hdocument with hvalue | hnull
    · exact absurd (List.mem_map_of_mem hvalue) hname.2
    · obtain ⟨other, -, hother⟩ := List.mem_map.mp hnull
      obtain rfl : null = _ := congrArg Prod.snd hother
      rfl
  omitted _ hread habsent := by
    rw [Members.optional_of_notMem habsent] at hread
    obtain rfl := Option.some.inj hread
    rfl
  given _ := .inr (mem_names_substitutes.mpr (.inr hname.1))
  alike hpart hfills habsent := by
    rw [Members.optional_insert_self habsent, Members.optional_insert_self habsent]
    exact (hparts _ hpart).1.nullable hfills
  kept hpart hread honce hlookup homits := by
    rw [Members.optional_of_lookup honce hlookup] at hread
    obtain ⟨value, rfl, homits'⟩ := (hparts _ hpart).2.nullable hread homits
    exact ⟨_, List.mem_singleton_self _, homits'⟩

/-- A part with a default and without a shape of its own. -/
theorem defaulted (h : Lossless encode decode)
    (hname : (name ∈ defaults.map Prod.fst ∧ name ∉ optionals ∧ name ∉ parts.map Prod.fst) ∧
      ∀ m ∈ defaults, m.1 = name → decode m.2 = some fallback) :
    Part defaults optionals parts name (fun members ↦ members.defaulted name fallback decode)
      (fun value ↦ [(name, encode value)]) := by
  obtain ⟨⟨hmissable, hgiven, hplain⟩, hdefault⟩ := hname
  exact defaultedOf h (fun _ hpart ↦ absurd (List.mem_map_of_mem hpart) hplain)
    ⟨⟨hmissable, hgiven⟩, hdefault⟩

/-- A part with a default and a shape of its own. -/
theorem defaultedShaped {shape : Shape} (h : RoundTrips shape encode decode)
    (hshape : ∀ p ∈ parts, p.1 = name → p.2 = shape)
    (hname : (name ∈ defaults.map Prod.fst ∧ name ∉ optionals) ∧
      ∀ m ∈ defaults, m.1 = name → decode m.2 = some fallback) :
    Part defaults optionals parts name (fun members ↦ members.defaulted name fallback decode)
      (fun value ↦ [(name, encode value)]) := by
  refine defaultedOf h.toLossless (fun _ hpart ↦ ?_) hname
  obtain rfl := hshape _ hpart rfl
  exact ⟨h.fillsAlike, h.staysOmitted⟩

/-- An optional part without a shape of its own. -/
theorem optional (h : Lossless encode decode)
    (hname : (name ∈ optionals ∧ name ∉ defaults.map Prod.fst) ∧ name ∉ parts.map Prod.fst) :
    Part defaults optionals parts name (fun members ↦ members.optional name decode)
      (member? name encode) :=
  optionalOf h (fun _ hpart ↦ absurd (List.mem_map_of_mem hpart) hname.2) hname.1

/-- An optional part with a shape of its own. -/
theorem optionalShaped {shape : Shape} (h : RoundTrips shape encode decode)
    (hshape : ∀ p ∈ parts, p.1 = name → p.2 = shape)
    (hname : name ∈ optionals ∧ name ∉ defaults.map Prod.fst) :
    Part defaults optionals parts name (fun members ↦ members.optional name decode)
      (member? name encode) := by
  refine optionalOf h.toLossless (fun _ hpart ↦ ?_) hname
  obtain rfl := hshape _ hpart rfl
  exact ⟨h.fillsAlike, h.staysOmitted⟩

end Part

theorem isExactMembers_append (before after : Members) :
    isExactMembers (before ++ after) = (isExactMembers before && isExactMembers after) := by
  induction before with
  | nil => rfl
  | cons m rest ih => rw [List.cons_append, isExactMembers, isExactMembers, ih, Bool.and_assoc]

/-- A record is read part by part, in the order of their names, and its value is written in the same
order after what was written before. The last index tells of which values it can be read. -/
inductive Reading (defaults : Members) (optionals : List String) (parts : List (String × Shape))
    (write : α → Members) : List String → Members → (Members → Option α) → (α → Prop) → Prop
  | done {written : Members} {value : α} (hwritten : write value = written) :
      Reading defaults optionals parts write [] written (fun _ ↦ some value) (· = value)
  | part {β : Type} {name : String} {names : List String} {written : Members}
      {read : Members → Option β} {writePart : β → Members} {rest : β → Members → Option α}
      {reached : β → α → Prop}
      (hpart : Part defaults optionals parts name read writePart)
      (hrest : ∀ value, Reading defaults optionals parts write names (written ++ writePart value)
        (rest value) (reached value)) :
      Reading defaults optionals parts write (name :: names) written
        (fun members ↦ (read members).bind fun value ↦ rest value members)
        (fun result ↦ ∃ value, reached value result)

namespace Reading

variable {write : α → Members} {names : List String} {written : Members}
  {read : Members → Option α} {reached : α → Prop}

/-- What comes of a reading is read from what is written of it. -/
theorem reads (h : Reading defaults optionals parts write names written read reached)
    (hdistinct : (written.map Prod.fst ++ names).Nodup) {value : α} (hreached : reached value) :
    ∃ tail, write value = written ++ tail ∧ (tail.map Prod.fst).Sublist names ∧
      isExactMembers tail = true ∧ read (write value) = some value := by
  induction h with
  | done hwritten =>
    obtain rfl := hreached
    exact ⟨[], by rw [hwritten, List.append_nil], List.nil_sublist _, rfl, rfl⟩
  | @part β name names written readPart writePart rest reached hpart hrest ih =>
    obtain ⟨first, hfirst⟩ := hreached
    have hsplit : ((written ++ writePart first).map Prod.fst ++ names).Nodup := by
      rw [List.map_append, List.append_assoc]
      exact hdistinct.sublist (((hpart.names first).append_right names).append_left _)
    obtain ⟨tail, hwrite, htail, hexact, hread⟩ := ih first hsplit hfirst
    have habsent : name ∉ (written ++ tail).map Prod.fst := by
      rw [List.map_append, List.mem_append, not_or]
      rw [List.nodup_append, List.nodup_cons] at hdistinct
      exact ⟨fun hmem ↦ hdistinct.2.2 _ hmem _ (List.mem_cons_self ..) rfl,
        fun hmem ↦ hdistinct.2.1.1 (htail.subset hmem)⟩
    refine ⟨writePart first ++ tail, by rw [hwrite, List.append_assoc], ?_, ?_, ?_⟩
    · rw [List.map_append]
      exact (hpart.names first).append htail
    · rw [isExactMembers_append, hpart.isExact, hexact]
      rfl
    · have hpartRead : readPart (write value) = some first := by
        rw [hwrite]
        exact hpart.reads first habsent
      exact Option.bind_eq_some_iff.mpr ⟨first, hpartRead, hread⟩

/-- Only what was written before comes first. -/
theorem prefix_write (h : Reading defaults optionals parts write names written read reached)
    {members : Members} {value : α} (hread : read members = some value) :
    written <+: write value := by
  induction h with
  | done hwritten =>
    obtain rfl := Option.some.inj hread
    exact hwritten ▸ List.prefix_refl _
  | part hpart hrest ih =>
    obtain ⟨first, -, hread⟩ := Option.bind_eq_some_iff.mp hread
    exact (List.prefix_append ..).trans (ih first hread)

/-- A member that may be missing is read like its substitute. -/
theorem substituted (h : Reading defaults optionals parts write names written read reached)
    {m : String × Json} (hm : m ∈ substitutes defaults optionals) {before after : Members}
    (habsent : m.1 ∉ (before ++ after).map Prod.fst) :
    read (before ++ m :: after) = read (before ++ after) := by
  induction h with
  | done => rfl
  | @part β name names written readPart writePart rest reached hpart hrest ih =>
    have hfirst : readPart (before ++ m :: after) = readPart (before ++ after) := by
      by_cases hname : m.1 = name
      · subst hname
        exact hpart.substituted hm habsent
      · exact hpart.elsewhere hname
    exact (congrArg (Option.bind · _) hfirst).trans (Option.bind_congr fun first _ ↦ ih first)

/-- Parts of their own shape are read alike in the record if they are on their own. -/
theorem alike (h : Reading defaults optionals parts write names written read reached)
    {p : String × Shape} (hp : p ∈ parts) {document document' : Json}
    (hfills : p.2.Fills document document') {before after : Members}
    (habsent : p.1 ∉ (before ++ after).map Prod.fst) :
    read (before ++ (p.1, document') :: after) = read (before ++ (p.1, document) :: after) := by
  induction h with
  | done => rfl
  | @part β name names written readPart writePart rest reached hpart hrest ih =>
    have hfirst : readPart (before ++ (p.1, document') :: after) =
        readPart (before ++ (p.1, document) :: after) := by
      by_cases hname : p.1 = name
      · subst hname
        exact hpart.alike hp hfills habsent
      · rw [hpart.elsewhere hname, hpart.elsewhere hname]
    exact (congrArg (Option.bind · _) hfirst).trans (Option.bind_congr fun first _ ↦ ih first)

/-- An optional member that is missing is not written. -/
theorem omitted (h : Reading defaults optionals parts write names written read reached)
    {name : String} (hname : name ∈ optionals) {members : Members} {value : α}
    (hread : read members = some value) (habsent : name ∉ members.map Prod.fst)
    (hwritten : name ∉ written.map Prod.fst) : name ∉ (write value).map Prod.fst := by
  induction h with
  | done hwrite =>
    obtain rfl := Option.some.inj hread
    rwa [hwrite]
  | @part β other names written readPart writePart rest reached hpart hrest ih =>
    obtain ⟨first, hfirst, hread⟩ := Option.bind_eq_some_iff.mp hread
    refine ih first hread ?_
    rw [List.map_append, List.mem_append, not_or]
    refine ⟨hwritten, fun hmem ↦ ?_⟩
    obtain rfl := List.mem_singleton.mp ((hpart.names first).subset hmem)
    rw [hpart.omitted hname hfirst habsent] at hmem
    cases hmem

/-- What a part of its own shape leaves out is left out of what is written of the part. -/
theorem kept (h : Reading defaults optionals parts write names written read reached)
    {p : String × Shape} (hp : p ∈ parts) (hname : p.1 ∈ names) {members : Members} {value : α}
    (hread : read members = some value) (honce : occurrences p.1 members ≤ 1) {document : Json}
    (hlookup : lookup p.1 members = some document) {path : List Step}
    (homits : p.2.Omits path document) :
    ∃ document', (p.1, document') ∈ write value ∧ p.2.Omits path document' := by
  induction h with
  | done => cases hname
  | @part β other names written readPart writePart rest reached hpart hrest ih =>
    obtain ⟨first, hfirst, hread⟩ := Option.bind_eq_some_iff.mp hread
    by_cases hother : p.1 = other
    · subst hother
      obtain ⟨document', hdocument', homits'⟩ := hpart.kept hp hfirst honce hlookup homits
      have hprefix := (hrest first).prefix_write hread
      exact ⟨document', hprefix.subset (List.mem_append_right _ hdocument'), homits'⟩
    · exact ih first ((List.mem_cons.mp hname).resolve_left hother) hread

/-- What is written was given, or may be missing. -/
theorem given (h : Reading defaults optionals parts write names written read reached)
    {members : Members} {value : α} (hread : read members = some value)
    (hwritten : ∀ name ∈ written.map Prod.fst, name ∈ members.map Prod.fst ∨
      name ∈ (substitutes defaults optionals).map Prod.fst) :
    ∀ name ∈ (write value).map Prod.fst, name ∈ members.map Prod.fst ∨
      name ∈ (substitutes defaults optionals).map Prod.fst := by
  induction h with
  | done hwrite =>
    obtain rfl := Option.some.inj hread
    rwa [hwrite]
  | @part β other names written readPart writePart rest reached hpart hrest ih =>
    obtain ⟨first, hfirst, hread⟩ := Option.bind_eq_some_iff.mp hread
    refine ih first hread fun name hname ↦ ?_
    rw [List.map_append, List.mem_append] at hname
    rcases hname with hname | hname
    · exact hwritten name hname
    · obtain rfl := List.mem_singleton.mp ((hpart.names first).subset hname)
      exact hpart.given hfirst

end Reading

/-- A type round-trips if its records are read part by part as they are written. -/
theorem RoundTrips.record {write : α → Members} {names : List String}
    {read : Members → Option α} {reached : α → Prop}
    (h : Reading defaults optionals parts write names [] read reached)
    (hreached : ∀ value, reached value) (hnames : names.Nodup) (hparts : ∀ p ∈ parts, p.1 ∈ names) :
    RoundTrips (.record defaults optionals parts) (fun value ↦ object (write value))
      (fun document ↦ (record? names document).bind read) := by
  have hwrite (value : α) : ((write value).map Prod.fst).Sublist names ∧
      isExactMembers (write value) = true ∧ read (write value) = some value := by
    obtain ⟨tail, hwrite, htail⟩ := h.reads hnames (hreached value)
    rwa [hwrite, List.nil_append] at htail ⊢
  have hlossless : Lossless (fun value ↦ object (write value))
      (fun document ↦ (record? names document).bind read) := by
    refine ⟨fun value ↦ ?_, fun value ↦ (hwrite value).2.1, fun _ ↦ rfl⟩
    have hrecord := record?_of_nodup (hnames.sublist (hwrite value).1) names
    exact Option.bind_eq_some_iff.mpr ⟨_, hrecord, (hwrite value).2.2⟩
  refine .of_lossless hlossless ?_ ?_ ?_
  · intro _ _ hfills
    cases hfills with
    | member hvalue habsent => exact bind_record?_insert habsent (h.substituted hvalue habsent)
    | part hpart hfills => exact bind_record?_replace (hparts _ hpart) (h.alike hpart hfills)
  · intro _ value _ hdecode homits
    obtain ⟨members, hrecord, hread⟩ := Option.bind_eq_some_iff.mp hdecode
    cases homits with
    | member hname habsent =>
      obtain ⟨rfl, -⟩ := objectRecord?_object hrecord
      exact .member hname (h.omitted hname hread habsent List.not_mem_nil)
    | part hpart hvalue homits =>
      obtain ⟨rfl, hsingle⟩ := objectRecord?_object hrecord
      have honce := hsingle _ (hparts _ hpart)
      obtain ⟨document', hdocument', homits'⟩ :=
        h.kept hpart (hparts _ hpart) hread honce (lookup_of_mem honce hvalue) homits
      exact .part hpart hdocument' homits'
  · intro members written value hdecode hwritten
    obtain ⟨r, hrecord, hread⟩ := Option.bind_eq_some_iff.mp hdecode
    obtain ⟨rfl, -⟩ := objectRecord?_object hrecord
    obtain rfl := Json.object.inj hwritten
    exact h.given hread (fun _ hname ↦ absurd hname List.not_mem_nil)

end Json

end PipelineOperator
