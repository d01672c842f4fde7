import LedWall.Proofs.Toml.Statements

/-!
# Written tables come back

The statements of a table build that table again. A header's path is followed from the root each time;
what a change at its end does to the whole tree is the same change seen through the tables on the way.
So each part of a table is built as if it were alone, and what it ends up as is put in its place.
-/

namespace LedWall.Toml

open Node

theorem alter_bind (name : String) (change next : Option Node → Option Node) (fields : Fields) :
    (fields.alter name change).bind (Fields.alter name next) =
      fields.alter name fun node => (change node).bind fun node => next (some node) := by
  induction fields with
  | nil => cases h : change none <;> simp [Fields.alter, h]
  | cons field fields ih =>
      obtain ⟨n, node⟩ := field
      by_cases hn : n = name
      · cases h : change (some node) <;> simp [Fields.alter, hn, h]
      · cases h : Fields.alter name change fields with
        | none => simp [Fields.alter, hn, h, ← ih]
        | some altered => simp [Fields.alter, hn, h, ← ih]

theorem onLast_append (change : Fields → Option Fields) (elements : List Fields) (fields : Fields) :
    onLast change (elements ++ [fields]) =
      (change fields).map fun fields => elements ++ [fields] := by
  induction elements with
  | nil => rfl
  | cons first elements ih =>
      have hne : elements ++ [fields] ≠ [] := by simp
      obtain ⟨second, more, hmore⟩ := List.exists_cons_of_ne_nil hne
      rw [hmore] at ih
      rw [List.cons_append, hmore, onLast, ih]
      · cases change fields <;> simp
      · simp

theorem onLast_bind (change next : Fields → Option Fields) (elements : List Fields) :
    (onLast change elements).bind (onLast next) =
      onLast (fun fields => (change fields).bind next) elements := by
  obtain rfl | ⟨before, last, rfl⟩ := List.eq_nil_or_concat elements
  · rfl
  · rw [List.concat_eq_append, onLast_append, onLast_append]
    cases h : change last <;> simp [onLast_append]

theorem enter_bind (change next : Fields → Option Fields) (node : Option Node) :
    ((enter change node).bind fun node => enter next (some node)) =
      enter (fun fields => (change fields).bind next) node := by
  match node with
  | none => cases h : change [] <;> simp [enter, h]
  | some (.value _) => rfl
  | some (.table origin fields) => cases h : change fields <;> simp [enter, h]
  | some (.tables elements) =>
      rw [enter, enter, ← onLast_bind]
      cases h : onLast change elements <;> simp [enter]

theorem within_bind (change next : Fields → Option Fields) (path : Path) (fields : Fields) :
    (fields.within change path).bind (Fields.within next path) =
      fields.within (fun fields => (change fields).bind next) path := by
  induction path generalizing fields with
  | nil => rfl
  | cons name path ih =>
      have hname : (fun node => (enter (Fields.within change path) node).bind fun node =>
          enter (Fields.within next path) (some node)) =
          enter (Fields.within (fun fields => (change fields).bind next) path) := by
        funext node
        rw [enter_bind, funext ih]
      rw [Fields.within, Fields.within, ← hname, ← alter_bind]
      rfl

theorem within_append (change : Fields → Option Fields) (path more : Path) (fields : Fields) :
    fields.within change (path ++ more) = fields.within (Fields.within change more) path := by
  induction path generalizing fields with
  | nil => rfl
  | cons name path ih => rw [List.cons_append, Fields.within, Fields.within, funext ih]

theorem alter_new {name : String} {fields : Fields} (h : name ∉ fields.map Prod.fst)
    (change : Option Node → Option Node) :
    fields.alter name change = (change none).map fun node => fields ++ [(name, node)] := by
  induction fields with
  | nil => rfl
  | cons field fields ih =>
      obtain ⟨n, node⟩ := field
      simp only [List.map_cons, List.mem_cons, not_or] at h
      rw [Fields.alter, if_neg (Ne.symm h.1), ih h.2]
      cases change none <;> simp

theorem alter_last {name : String} {fields : Fields} (h : name ∉ fields.map Prod.fst) (node : Node)
    (change : Option Node → Option Node) :
    Fields.alter name change (fields ++ [(name, node)]) =
      (change (some node)).map fun node => fields ++ [(name, node)] := by
  induction fields with
  | nil => simp [Fields.alter]
  | cons field fields ih =>
      obtain ⟨n, node'⟩ := field
      simp only [List.map_cons, List.mem_cons, not_or] at h
      rw [List.cons_append, Fields.alter, if_neg (Ne.symm h.1), ih h.2]
      cases change (some node) <;> simp

/-- A change at `path` is a change of `inner`, which `put` has in its place. A table that is still
missing counts as empty. -/
def Reaches (path : Path) (whole inner : Fields) (put : Fields → Fields) : Prop :=
  ∀ change : Fields → Option Fields, whole.within change path = (change inner).map put

variable {path : Path} {whole inner : Fields} {put : Fields → Fields}

theorem Reaches.within (h : Reaches path whole inner put) (change : Fields → Option Fields) :
    whole.within change path = (change inner).map put := h change

theorem reaches_root (fields : Fields) : Reaches [] fields fields id := by
  intro change
  simp [Fields.within]

theorem Reaches.putBack (h : Reaches path whole inner put) (fields : Fields) :
    Reaches path (put fields) fields put := by
  intro change
  -- Putting `fields` there is a change too, and two changes in a row are one.
  have hput : whole.within (fun _ => some fields) path = some (put fields) := h.within _
  have hbind := within_bind (fun _ => some fields) change path whole
  rw [hput, h.within] at hbind
  exact hbind

theorem Reaches.implied (h : Reaches path whole inner put) {name : String}
    (hname : name ∉ inner.map Prod.fst) :
    Reaches (path ++ [name]) whole []
      fun fields => put (inner ++ [(name, .table .implied fields)]) := by
  intro change
  rw [within_append, h.within, Fields.within, alter_new hname]
  cases hc : change [] <;> simp [enter, Fields.within, hc]

theorem Reaches.table (h : Reaches path whole inner put) {name : String}
    (hname : name ∉ inner.map Prod.fst) (origin : Origin) (fields : Fields) :
    Reaches (path ++ [name]) (put (inner ++ [(name, .table origin fields)])) fields
      fun fields => put (inner ++ [(name, .table origin fields)]) := by
  intro change
  rw [within_append, (h.putBack _).within, Fields.within, alter_last hname]
  cases hc : change fields <;> simp [enter, Fields.within, hc]

theorem Reaches.element (h : Reaches path whole inner put) {name : String}
    (hname : name ∉ inner.map Prod.fst) (elements : List Fields) (fields : Fields) :
    Reaches (path ++ [name]) (put (inner ++ [(name, .tables (elements ++ [fields]))])) fields
      fun fields => put (inner ++ [(name, .tables (elements ++ [fields]))]) := by
  intro change
  rw [within_append, (h.putBack _).within, Fields.within, alter_last hname, enter, onLast_append]
  cases hc : change fields <;> simp [Fields.within, hc]

theorem add_field (h : Reaches path whole inner put) {name : String}
    (hname : name ∉ inner.map Prod.fst) (v : Value) :
    Draft.add ⟨whole, path⟩ (.field [name] v) = some ⟨put (inner ++ [(name, .value v)]), path⟩ := by
  rw [Draft.add, h.within]
  simp [Fields.assign, alter_new hname]

theorem add_table (h : Reaches path whole inner put) {name : String}
    (hname : name ∉ inner.map Prod.fst) (current : Path) :
    Draft.add ⟨whole, current⟩ (.table (path ++ [name])) =
      some ⟨put (inner ++ [(name, .table .header [])]), path ++ [name]⟩ := by
  simp only [Draft.add, List.getLast?_concat, List.dropLast_concat, h.within]
  simp [Fields.open, alter_new hname]

theorem add_first_element (h : Reaches path whole inner put) {name : String}
    (hname : name ∉ inner.map Prod.fst) (current : Path) :
    Draft.add ⟨whole, current⟩ (.element (path ++ [name])) =
      some ⟨put (inner ++ [(name, .tables [[]])]), path ++ [name]⟩ := by
  simp only [Draft.add, List.getLast?_concat, List.dropLast_concat, h.within]
  simp [Fields.push, alter_new hname]

theorem add_element (h : Reaches path whole inner put) {name : String}
    (hname : name ∉ inner.map Prod.fst) (elements : List Fields) (current : Path) :
    Draft.add ⟨put (inner ++ [(name, .tables elements)]), current⟩ (.element (path ++ [name])) =
      some ⟨put (inner ++ [(name, .tables (elements ++ [[]]))]), path ++ [name]⟩ := by
  simp only [Draft.add, List.getLast?_concat, List.dropLast_concat, (h.putBack _).within]
  simp [Fields.push, alter_last hname]

/-- Tables and arrays of at least one table, which are written under headers. -/
def Value.IsNested (inside : Table → Prop) : Value → Prop
  | .table fields => inside fields
  | .array elements => elements ≠ [] ∧ ∀ v ∈ elements, ∃ fields, v = .table fields ∧ inside fields
  | _ => False

/-- Names differ, and plain values come before tables. -/
structure Arranged (inside : Table → Prop) (t : Table) : Prop where
  names : (t.map Prod.fst).Nodup
  order : ∃ plain nested, t = plain ++ nested ∧ (∀ field ∈ plain, field.2.isPlain = true) ∧
    ∀ field ∈ nested, field.2.IsNested inside

/-- Tables that are arranged so at every level, of which there are no more than `depth`. -/
def Orderly : Nat → Table → Prop
  | 0, _ => False
  | depth + 1, t => Arranged (Orderly depth) t

theorem isInline_of_isPlain {v : Value} (h : v.isPlain = true) : v.isInline = true := by
  cases v with
  | array elements =>
      cases elements with
      | nil => rfl
      | cons v vs =>
          have hv : v.isTable = false := by
            have : v.isScalar = true := List.all_eq_true.mp h v List.mem_cons_self
            cases v <;> first | rfl | cases this
          simp [Value.isInline, hv]
  | table fields => cases h
  | _ => rfl

theorem isInline_of_isNested {inside : Table → Prop} {v : Value} (h : v.IsNested inside) :
    v.isInline = false := by
  cases v with
  | table fields => rfl
  | array elements =>
      have htables : elements.all Value.isTable = true := by
        apply List.all_eq_true.mpr
        intro v hv
        obtain ⟨fields, rfl, -⟩ := h.2 v hv
        rfl
      simp [Value.isInline, htables, h.1]
  | _ => cases h

theorem inlineFields_append {plain nested : Table} {inside : Table → Prop}
    (hplain : ∀ field ∈ plain, field.2.isPlain = true)
    (hnested : ∀ field ∈ nested, field.2.IsNested inside) :
    inlineFields (plain ++ nested) = plain.map fun field => .field [field.1] field.2 := by
  have hkept : plain.filter (fun field => field.2.isInline) = plain :=
    List.filter_eq_self.mpr fun field hfield => isInline_of_isPlain (hplain field hfield)
  have hdropped : nested.filter (fun field => field.2.isInline) = [] :=
    List.filter_eq_nil_iff.mpr fun field hfield => by
      simp [isInline_of_isNested (hnested field hfield)]
  rw [inlineFields, List.filter_append, hkept, hdropped, List.append_nil]

theorem fieldsUnder_append (path : Path) {plain : Table}
    (hplain : ∀ field ∈ plain, field.2.isPlain = true) (nested : Table) :
    fieldsUnder path (plain ++ nested) = fieldsUnder path nested := by
  induction plain with
  | nil => rfl
  | cons field plain ih =>
      simp only [List.mem_cons, forall_eq_or_imp] at hplain
      rw [List.cons_append, fieldsUnder, isInline_of_isPlain hplain.1, ih hplain.2]
      rfl

def build (xs : List Statement) (d : Draft) : Option Draft := xs.foldlM Draft.add d

theorem build_append (xs ys : List Statement) (d : Draft) :
    build (xs ++ ys) d = (build xs d).bind (build ys) := by
  rw [build, List.foldlM_append]
  rfl

theorem build_cons (x : Statement) (xs : List Statement) (d : Draft) :
    build (x :: xs) d = (d.add x).bind (build xs) := by
  rw [build, List.foldlM_cons]
  rfl

theorem fieldValues_append (fields more : Fields) :
    fieldValues (fields ++ more) = fieldValues fields ++ fieldValues more := by
  induction fields with
  | nil => rfl
  | cons field fields ih => simp [fieldValues, ih]

/-- The statements below a table's header build that table, wherever it is. The header must come right
before its plain fields, and without any field the table must be there already. -/
def Builds (t : Table) : Prop :=
  ∀ path whole put current, Reaches path whole [] put →
    (inlineFields t ≠ [] → current = path) → (t = [] → whole = put []) →
      ∃ fields last, fieldValues fields = t ∧
        build ((Value.table t).under path) ⟨whole, current⟩ = some ⟨put fields, last⟩

theorem Value.IsNested.imp {inside more : Table → Prop} (himp : ∀ t, inside t → more t) {v : Value}
    (h : v.IsNested inside) : v.IsNested more := by
  cases v with
  | table fields => exact himp fields h
  | array elements =>
      refine ⟨h.1, fun v hv => ?_⟩
      obtain ⟨fields, hfields, hinside⟩ := h.2 v hv
      exact ⟨fields, hfields, himp fields hinside⟩
  | _ => cases h

theorem not_mem_of_nodup {name : String} {names more : List String}
    (h : (names ++ name :: more).Nodup) : name ∉ names := by
  intro hmem
  exact (List.nodup_append.mp h).2.2 name hmem name List.mem_cons_self rfl

def plainFields (plain : Table) : Fields := plain.map fun field => (field.1, .value field.2)

theorem fieldValues_plainFields (plain : Table) : fieldValues (plainFields plain) = plain := by
  induction plain with
  | nil => rfl
  | cons field plain ih =>
      rw [plainFields, List.map_cons, fieldValues, ← plainFields, ih]
      rfl

theorem names_plainFields (plain : Table) :
    (plainFields plain).map Prod.fst = plain.map Prod.fst := by
  simp [plainFields]

theorem build_plain (h : Reaches path whole inner put) {plain : Table}
    (hnames : (inner.map Prod.fst ++ plain.map Prod.fst).Nodup) (hne : plain ≠ []) :
    build (plain.map fun field => .field [field.1] field.2) ⟨whole, path⟩ =
      some ⟨put (inner ++ plainFields plain), path⟩ := by
  induction plain generalizing whole inner with
  | nil => exact absurd rfl hne
  | cons field plain ih =>
      obtain ⟨name, v⟩ := field
      have hname : name ∉ inner.map Prod.fst := not_mem_of_nodup hnames
      have hmore : ((inner ++ [(name, Node.value v)]).map Prod.fst ++ plain.map Prod.fst).Nodup := by
        simpa using hnames
      rw [List.map_cons, build_cons, add_field h hname, Option.bind_some]
      by_cases hplain : plain = []
      · subst hplain
        rfl
      · rw [ih (h.putBack _) hmore hplain]
        simp [plainFields]

theorem build_elements (h : Reaches path whole inner put) {name : String}
    (hname : name ∉ inner.map Prod.fst) {vs : List Value}
    (hvs : ∀ v ∈ vs, ∃ fields, v = .table fields ∧ Builds fields) (elements : List Fields)
    (current : Path) :
    ∃ more last, elementValues more = vs ∧
      build (elementsUnder (path ++ [name]) vs) ⟨put (inner ++ [(name, .tables elements)]), current⟩ =
        some ⟨put (inner ++ [(name, .tables (elements ++ more))]), last⟩ := by
  induction vs generalizing elements current with
  | nil => exact ⟨[], current, rfl, by rw [List.append_nil]; rfl⟩
  | cons v vs ih =>
      simp only [List.mem_cons, forall_eq_or_imp] at hvs
      obtain ⟨⟨t, rfl, ht⟩, hvs⟩ := hvs
      obtain ⟨fields, last, hfields, hbuild⟩ :=
        ht _ _ _ (path ++ [name]) (h.element hname elements []) (fun _ => rfl) (fun _ => rfl)
      obtain ⟨more, last', hmore, hrest⟩ := ih hvs (elements ++ [fields]) last
      refine ⟨fields :: more, last', by rw [elementValues, hfields, hmore], ?_⟩
      rw [elementsUnder, build_append, build_cons, add_element h hname, Option.bind_some, hbuild,
        Option.bind_some, hrest]
      simp

theorem build_nested (h : Reaches path whole inner put) {name : String}
    (hname : name ∉ inner.map Prod.fst) {v : Value} (hv : v.IsNested Builds) (current : Path) :
    ∃ node last, node.toValue = v ∧
      build (v.header (path ++ [name]) ++ v.under (path ++ [name])) ⟨whole, current⟩ =
        some ⟨put (inner ++ [(name, node)]), last⟩ := by
  cases v with
  | table t =>
      by_cases hheader : t ≠ [] ∧ inlineFields t = []
      · obtain ⟨fields, last, hfields, hbuild⟩ :=
          hv _ _ _ current (h.implied hname) (fun hne => absurd hheader.2 hne)
            (fun hempty => absurd hempty hheader.1)
        refine ⟨.table .implied fields, last, by rw [toValue, hfields], ?_⟩
        rw [Value.header, if_pos hheader, List.nil_append, hbuild]
      · obtain ⟨fields, last, hfields, hbuild⟩ :=
          hv _ _ _ (path ++ [name]) (h.table hname .header []) (fun _ => rfl) (fun _ => rfl)
        refine ⟨.table .header fields, last, by rw [toValue, hfields], ?_⟩
        rw [Value.header, if_neg hheader, List.singleton_append, build_cons, add_table h hname,
          Option.bind_some, hbuild]
  | array elements =>
      obtain ⟨hne, helements⟩ := hv
      obtain ⟨v, vs, rfl⟩ := List.exists_cons_of_ne_nil hne
      simp only [List.mem_cons, forall_eq_or_imp] at helements
      obtain ⟨⟨t, rfl, ht⟩, hvs⟩ := helements
      obtain ⟨fields, last, hfields, hbuild⟩ :=
        ht _ _ _ (path ++ [name]) (h.element hname [] []) (fun _ => rfl) (fun _ => rfl)
      obtain ⟨more, last', hmore, hrest⟩ := build_elements h hname hvs [fields] last
      refine ⟨.tables (fields :: more), last', by rw [toValue, elementValues, hfields, hmore], ?_⟩
      have hheader : (Value.array (.table t :: vs)).header (path ++ [name]) = [] := rfl
      rw [List.nil_append, List.nil_append] at hbuild
      rw [hheader, List.nil_append, Value.under, elementsUnder, build_append, build_cons,
        add_first_element h hname, Option.bind_some, hbuild, Option.bind_some, hrest]
      rfl
  | _ => cases hv

theorem build_fields (h : Reaches path whole inner put) {nested : Table}
    (hnested : ∀ field ∈ nested, field.2.IsNested Builds)
    (hnames : (inner.map Prod.fst ++ nested.map Prod.fst).Nodup)
    (hempty : nested = [] → whole = put inner) (current : Path) :
    ∃ fields last, fieldValues fields = nested ∧
      build (fieldsUnder path nested) ⟨whole, current⟩ = some ⟨put (inner ++ fields), last⟩ := by
  induction nested generalizing whole inner current with
  | nil => exact ⟨[], current, rfl, by rw [List.append_nil, ← hempty rfl]; rfl⟩
  | cons field nested ih =>
      obtain ⟨name, v⟩ := field
      simp only [List.mem_cons, forall_eq_or_imp] at hnested
      have hname : name ∉ inner.map Prod.fst := not_mem_of_nodup hnames
      obtain ⟨node, last, hnode, hbuild⟩ := build_nested h hname hnested.1 current
      have hmore : ((inner ++ [(name, node)]).map Prod.fst ++ nested.map Prod.fst).Nodup := by
        simpa using hnames
      obtain ⟨fields, last', hfields, hrest⟩ :=
        ih (h.putBack (inner ++ [(name, node)])) hnested.2 hmore (fun _ => rfl) last
      refine ⟨(name, node) :: fields, last', by rw [fieldValues, hnode, hfields], ?_⟩
      rw [fieldsUnder, isInline_of_isNested hnested.1, build_append]
      simp [hbuild, hrest]

theorem builds_of_arranged {t : Table} (ht : Arranged Builds t) : Builds t := by
  intro path whole put current h hcurrent hempty
  obtain ⟨plain, nested, rfl, hplain, hnested⟩ := ht.order
  have hnames := ht.names
  rw [List.map_append] at hnames
  rw [inlineFields_append hplain hnested] at hcurrent
  rw [Value.under, inlineFields_append hplain hnested, fieldsUnder_append path hplain, build_append]
  by_cases hne : plain = []
  · subst hne
    exact build_fields h hnested hnames hempty current
  · have hpath : current = path := hcurrent (by simpa using hne)
    have hplainNames : (([] : Fields).map Prod.fst ++ plain.map Prod.fst).Nodup :=
      (List.nodup_append.mp hnames).1
    rw [← names_plainFields] at hnames
    obtain ⟨fields, last, hfields, hbuild⟩ :=
      build_fields (h.putBack (plainFields plain)) hnested hnames (fun _ => rfl) path
    refine ⟨plainFields plain ++ fields, last, ?_, ?_⟩
    · rw [fieldValues_append, fieldValues_plainFields, hfields]
    · rw [hpath, build_plain h hplainNames hne, Option.bind_some]
      exact hbuild

theorem Arranged.imp {inside more : Table → Prop} (himp : ∀ t, inside t → more t) {t : Table}
    (h : Arranged inside t) : Arranged more t := by
  obtain ⟨plain, nested, ht, hplain, hnested⟩ := h.order
  exact ⟨h.names, plain, nested, ht, hplain, fun field hfield => (hnested field hfield).imp himp⟩

theorem builds_of_orderly {depth : Nat} {t : Table} (ht : Orderly depth t) : Builds t := by
  induction depth generalizing t with
  | zero => cases ht
  | succ depth ih => exact builds_of_arranged (Arranged.imp (fun _ => ih) ht)

/-- An orderly table comes back from its statements. -/
theorem tableOf?_statements {depth : Nat} {t : Table} (ht : Orderly depth t) :
    tableOf? t.statements = some t := by
  obtain ⟨fields, last, hfields, hbuild⟩ :=
    builds_of_orderly ht [] [] id [] (reaches_root []) (fun _ => rfl) (fun _ => rfl)
  have hdraft : t.statements.foldlM Draft.add .empty = some ⟨fields, last⟩ := hbuild
  rw [tableOf?, hdraft, Option.map_some, hfields]

end LedWall.Toml
