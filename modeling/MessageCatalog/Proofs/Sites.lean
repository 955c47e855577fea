import MessageCatalog.Proofs.Uniqueness

/-!
# Sites and their paths

A failure to read or write a value names a site of the template, a block or a field, by a path: the names that lead to
it, with dots between them. The path is made from the name that the block keeps of its message, not from the message
itself.

Main statement: in a valid template no two sites have the same path. No name has a dot, so a path gives back its names
(`pathNames_path`), and names that are made into different field names are different, so the names give back the site.
-/

namespace MessageCatalog

/-- A place of a template that a failure can name: a block of a message, or a field of such a block. -/
inductive Site where
  | block (message : Message) (block : Block)
  | field (message : Message) (block : Block) (field : Field)
  deriving DecidableEq, Repr

namespace Site

/-- The path by which failures name the site. -/
def path : Site → String
  | block _ b => b.path
  | field _ b f => b.fieldPath f

/-- The names that lead to the site. -/
def names : Site → List String
  | block m b => [m.name, b.name]
  | field m b f => [m.name, b.name, f.name]

end Site

/-- The block as a site, and then its fields. -/
def Block.sites (m : Message) (b : Block) : List Site :=
  .block m b :: b.fields.map (.field m b)

def Message.sites (m : Message) : List Site :=
  m.blocks.flatMap (Block.sites m)

/-- All sites of a template, in the order of declaration. -/
def Template.sites (t : Template) : List Site :=
  t.messages.flatMap Message.sites

/-- The first site of a path. -/
def Template.site? (t : Template) (path : String) : Option Site :=
  t.sites.find? (·.path == path)

/-- The names in a path: what stands between its dots. -/
def pathNames (path : String) : List String :=
  (path.toList.splitOn '.').map String.ofList

/-! ## The sites of a template -/

theorem Message.mem_sites_iff {m : Message} {site : Site} :
    site ∈ m.sites ↔ ∃ b ∈ m.blocks, site = .block m b ∨ ∃ f ∈ b.fields, site = .field m b f := by
  simp [Message.sites, Block.sites, eq_comm]

/-- The names of a site of a block start with those of its message and of the block. -/
theorem Block.names_of_mem_sites {m : Message} {b : Block} {names : List String} (h : names ∈ (b.sites m).map Site.names) :
    names.take 2 = [m.name, b.name] := by
  obtain ⟨site, hsite, rfl⟩ := List.mem_map.mp h
  rcases List.mem_cons.mp hsite with rfl | hfield
  · rfl
  · obtain ⟨f, -, rfl⟩ := List.mem_map.mp hfield
    rfl

theorem Message.names_of_mem_sites {m : Message} {names : List String} (h : names ∈ m.sites.map Site.names) :
    names.head? = some m.name := by
  rw [Message.sites, List.map_flatMap] at h
  obtain ⟨b, -, hnames⟩ := List.mem_flatMap.mp h
  simpa [List.head?_take] using congrArg List.head? (Block.names_of_mem_sites hnames)

/-! ## Names lead to one site -/

/-- The fields of a block lead to different sites, and none of them to the block itself. -/
theorem Block.nodup_names {m : Message} {b : Block} (h : (b.fields.map (·.name)).Nodup) : ((b.sites m).map Site.names).Nodup := by
  have hfields : (b.fields.map (.field m b)).map Site.names = (b.fields.map (·.name)).map fun name => [m.name, b.name, name] := by
    rw [List.map_map, List.map_map]
    rfl
  rw [Block.sites, List.map_cons, hfields, List.nodup_cons]
  refine ⟨by simp [Site.names], h.map fun name name' he => ?_⟩
  simpa using he

theorem Message.nodup_names {m : Message} (hblocks : (m.blocks.map (·.name)).Nodup)
    (hfields : ∀ b ∈ m.blocks, (b.fields.map (·.name)).Nodup) : (m.sites.map Site.names).Nodup := by
  rw [Message.sites, List.map_flatMap]
  refine nodup_flatMap_of_keys hblocks ?_ ?_
  · intro b hb
    exact Block.nodup_names (hfields b hb)
  · intro b b' names hb hb'
    have hsame := (Block.names_of_mem_sites hb).symm.trans (Block.names_of_mem_sites hb')
    simpa using hsame

/-- Names that are made into different field names are different. -/
theorem nodup_of_fieldNames {α : Type} {name : α → String} {elements : List α}
    (h : (elements.map fun a => Naming.fieldName (name a)).Nodup) : (elements.map name).Nodup := by
  have hmade : ((elements.map name).map Naming.fieldName).Nodup := by rwa [List.map_map]
  exact hmade.of_map

/-- Where nothing is declared twice, the names of a site lead to no other. -/
theorem Template.Distinct.nodup_names {t : Template} (h : t.Distinct) : (t.sites.map Site.names).Nodup := by
  rw [Template.sites, List.map_flatMap]
  refine nodup_flatMap_of_keys h.names ?_ ?_
  · intro m hm
    exact Message.nodup_names (nodup_of_fieldNames (h.blocks m hm)) fun b hb => nodup_of_fieldNames (h.fields m hm b hb)
  · intro m m' names hm hm'
    exact Option.some.inj ((Message.names_of_mem_sites hm).symm.trans (Message.names_of_mem_sites hm'))

/-! ## A path gives back its names -/

theorem IsName.dot_notMem {name : String} (h : IsName name) : '.' ∉ name.toList := by
  obtain ⟨c, rest, hname, hc, hrest⟩ := h
  rw [hname, List.mem_cons]
  rintro (rfl | hdot)
  · exact absurd hc (by decide)
  · exact absurd (hrest _ hdot) (by decide)

/-- Names with dots between them are found again between the dots. -/
theorem pathNames_eq {path : String} {names : List String} (hpath : path.toList = ['.'].intercalate (names.map String.toList))
    (hne : names ≠ []) (h : ∀ name ∈ names, IsName name) : pathNames path = names := by
  have hsplit : path.toList.splitOn '.' = names.map String.toList := by
    rw [hpath]
    exact List.splitOn_intercalate '.' (List.forall_mem_map.mpr fun name hname => (h name hname).dot_notMem) (by simpa using hne)
  simp [pathNames, hsplit]

/-- In a valid template the names of a site can be read off its path. -/
theorem Template.Valid.pathNames_path {t : Template} (h : t.Valid) {site : Site} (hsite : site ∈ t.sites) :
    pathNames site.path = site.names := by
  obtain ⟨m, hm, hsite⟩ := List.mem_flatMap.mp hsite
  obtain ⟨b, hb, hsite⟩ := Message.mem_sites_iff.mp hsite
  have hmessage := h.messages m hm
  have hblock := hmessage.blocks b hb
  rcases hsite with rfl | ⟨f, hf, rfl⟩
  · refine pathNames_eq ?_ (by simp [Site.names]) ?_
    · simp [Site.path, Block.path, Site.names, hblock.owner, List.intercalate]
    · simp [Site.names, hmessage.name, hblock.name]
  · refine pathNames_eq ?_ (by simp [Site.names]) ?_
    · simp [Site.path, Block.fieldPath, Site.names, hblock.owner, List.intercalate]
    · simp [Site.names, hmessage.name, hblock.name, (hblock.fields f hf).name]

/-- In a valid template no two sites have the same path. -/
theorem Template.Valid.nodup_paths {t : Template} (h : t.Valid) : (t.sites.map Site.path).Nodup := by
  have hnames : (t.sites.map Site.path).map pathNames = t.sites.map Site.names := by
    rw [List.map_map]
    exact List.map_congr_left fun site hsite => h.pathNames_path hsite
  exact (hnames ▸ h.distinct.nodup_names).of_map

/-- A site of a valid template is found by its path. -/
theorem Template.Valid.site?_path {t : Template} (h : t.Valid) {site : Site} (hsite : site ∈ t.sites) :
    t.site? site.path = some site :=
  find?_key_eq_some h.nodup_paths hsite

end MessageCatalog
