import CoreBridge.Proofs.Wire.Maps
import CoreBridge.Proofs.Wire.Recursion
import CoreBridge.Proofs.Wire.Refusals

/-!
# What nodes take

A value of a type that contains itself holds further values of the type, and these
are its nodes, the value included (`Value.nodes`). A node takes what its type takes
at least, besides what is taken by the nodes behind its counts. So the bytes that are
read bound the nodes of what they make, and of labelled trees they tell them exactly.
-/
namespace CoreBridge.Wire

open Reader

variable {α : Type}

/-! ## Bytes and answers -/

namespace Reader

theorem SelfDelimiting.ensures_le {k : Nat} {r : Reader α} (h : r.SelfDelimiting)
    (hk : r.TakesAtLeast k) : r.Ensures fun _ taken => k ≤ taken.length := by
  intro bytes rest a hrun
  obtain ⟨taken, rfl, -⟩ := h.exact hrun
  have hle := hk _ _ _ hrun
  rw [List.length_append] at hle
  exact ⟨taken, rfl, by omega⟩

/-- What each pass ensures of its answer adds up along a loop. -/
theorem Ensures.repeated {r : Reader α} {P : α → Bytes → Prop} {Q : List α → Bytes → Prop}
    (hr : r.Ensures P) (hnil : Q [] [])
    (hcons : ∀ a as first second, P a first → Q as second → Q (a :: as) (first ++ second))
    (count : Nat) : (Reader.repeated count r).Ensures Q := by
  induction count with
  | zero => exact ensures_pure hnil
  | succ count ih =>
    rw [repeated_succ]
    exact hr.bind fun a first ha => ih.map fun as second has => hcons a as first second ha has

theorem ensures_length_four : length.Ensures fun _ taken => taken.length = 4 := by
  refine ensures_length.mono fun n taken h => ?_
  obtain ⟨-, rfl⟩ := Emission.length_eq_raw h
  exact Bytes.length_ofNat 4 n

theorem ensures_text_length :
    text.Ensures fun s taken => taken.length = 4 + (Bytes.ofText s).length := by
  refine ensures_text.mono fun s taken h => ?_
  obtain ⟨_, _, hlength, hbytes, rfl⟩ := Emission.append_eq_raw.1 h
  obtain ⟨-, rfl⟩ := Emission.length_eq_raw hlength
  obtain rfl := Emission.raw_inj.1 hbytes
  rw [List.length_append, Bytes.length_ofNat]

end Reader

/-! ## Nodes -/

/-- The fields of a record, or those of the variant at `position`. -/
def Decl.fieldsAt (position : Nat) : Decl → List Field
  | .record fields => fields
  | .enumeration variants => variants[position]?.elim [] Variant.fields

mutual

/-- How many values of the declared type `target` stand in a value of type `t`, itself
included. The type is told by its declaration and the names this may use outside a count. -/
def Value.nodes (schema : Schema) (target : Decl × Schema) (scope : Schema) : Value → Ty → Nat
  | .present v, .option t => v.nodes schema target scope t
  | .seq vs, .seq t => Value.nodesOfAll schema target vs t
  | .map _ es, .map _ k v => Value.nodesOfEntries schema target es k v
  | .record vs, .named name =>
    (if scope.find name = target then 1 else 0) +
      Value.nodesOfFields schema target (scope.find name).2 vs ((scope.find name).1.fieldsAt 0)
  | .variant i _ vs, .named name =>
    (if scope.find name = target then 1 else 0) +
      Value.nodesOfFields schema target (scope.find name).2 vs ((scope.find name).1.fieldsAt i)
  | _, _ => 0

def Value.nodesOfAll (schema : Schema) (target : Decl × Schema) : List Value → Ty → Nat
  | [], _ => 0
  | v :: vs, t => v.nodes schema target schema t + Value.nodesOfAll schema target vs t

def Value.nodesOfEntries (schema : Schema) (target : Decl × Schema) :
    List (Value × Value) → Ty → Ty → Nat
  | [], _, _ => 0
  | (key, value) :: es, k, v =>
    key.nodes schema target schema k + value.nodes schema target schema v +
      Value.nodesOfEntries schema target es k v

def Value.nodesOfFields (schema : Schema) (target : Decl × Schema) (scope : Schema) :
    List Value → List Field → Nat
  | v :: vs, field :: fields =>
    v.nodes schema target scope field.type + Value.nodesOfFields schema target scope vs fields
  | _, _ => 0

end

section Nodes

variable {schema scope : Schema} {target : Decl × Schema} {v : Value} {name : String} {k x : Ty}

theorem Value.nodes_congr {scope' : Schema} (h : scope.find name = scope'.find name) :
    v.nodes schema target scope (.named name) = v.nodes schema target scope' (.named name) := by
  cases v <;> simp only [nodes, h]

theorem Value.nodesOfEntries_eq (es : Entries) : nodesOfEntries schema target es k x =
    (es.map fun e => e.1.nodes schema target schema k + e.2.nodes schema target schema x).sum := by
  induction es with
  | nil => rfl
  | cons e es ih => rw [nodesOfEntries, ih, List.map_cons, List.sum_cons]

/-- A map has no more nodes than the entries it is made from. -/
theorem Value.nodesOfEntries_ofList_le (kind : MapKind) (es : Entries) :
    nodesOfEntries schema target (Entries.ofList kind es) k x ≤
      nodesOfEntries schema target es k x := by
  have hnodup := (Entries.isListed_ofList kind es).nodup
  obtain ⟨some, hperm, hsublist⟩ :=
    List.subperm_of_subset hnodup fun e (he : e ∈ Entries.ofList kind es) =>
      Entries.mem_of_mem_ofList he
  rw [nodesOfEntries_eq, nodesOfEntries_eq, ← (hperm.map _).sum_eq]
  exact (hsublist.map _).sum_le_sum fun _ _ => Nat.zero_le _

end Nodes

/-! ## Nodes are paid for -/

section Weight

variable {schema scope : Schema} {target : Decl × Schema} {weight : Nat}

theorem ensures_nodes_repeated {t : Ty} {r : Reader Value}
    (hr : r.Ensures fun v taken => weight * v.nodes schema target schema t ≤ taken.length)
    (count : Nat) : (repeated count r).Ensures fun vs taken =>
      weight * Value.nodesOfAll schema target vs t ≤ taken.length := by
  refine hr.repeated (Nat.zero_le _) (fun v vs first second hv hvs => ?_) count
  rw [Value.nodesOfAll, Nat.mul_add, List.length_append]
  exact Nat.add_le_add hv hvs

theorem ensures_nodes_readEntries {k x : Ty} {key value : Reader Value}
    (hkey : key.Ensures fun v taken => weight * v.nodes schema target schema k ≤ taken.length)
    (hvalue : value.Ensures fun v taken => weight * v.nodes schema target schema x ≤ taken.length)
    (kind : MapKind) (count : Nat) : (readEntries kind key value count).Ensures fun es taken =>
      weight * Value.nodesOfEntries schema target es k x ≤ taken.length := by
  have hentry : (do let a ← key; let b ← value; return (a, b) : Reader (Value × Value)).Ensures
      fun e taken => weight * Value.nodesOfEntries schema target [e] k x ≤ taken.length := by
    refine hkey.bind fun a first ha => hvalue.map fun b second hb => ?_
    rw [Value.nodesOfEntries, Value.nodesOfEntries, Nat.add_zero, Nat.mul_add, List.length_append]
    exact Nat.add_le_add ha hb
  have hloop := hentry.repeated (Q := fun es taken =>
    weight * Value.nodesOfEntries schema target es k x ≤ taken.length) (Nat.zero_le _)
    (fun e es first second he hes => by
      rw [Value.nodesOfEntries_eq, List.map_cons, List.sum_cons, ← Value.nodesOfEntries_eq,
        Nat.mul_add, List.length_append]
      exact Nat.add_le_add he hes) count
  refine hloop.map fun es taken hes => ?_
  exact (Nat.mul_le_mul_left weight (Value.nodesOfEntries_ofList_le kind es)).trans hes

section Composite

variable {fewest : String → Nat} {element : Ty → Reader Value} {named : String → Reader Value}
  (helement : ∀ t, (element t).Ensures fun v taken =>
    weight * v.nodes schema target schema t ≤ taken.length)
  (hnamed : ∀ name, (named name).Ensures fun v taken =>
    fewest name + weight * v.nodes schema target scope (.named name) ≤ taken.length)

include helement hnamed

/-- Reading a type takes what the type says and the weight of every node, if that is so of what
stands behind a count and of the declared names. -/
theorem Ty.ensures_nodes (t : Ty) : (t.readWith element named).Ensures fun v taken =>
    t.fewestWith fewest + weight * v.nodes schema target scope t ≤ taken.length := by
  induction t with
  | scalar k =>
    exact ((selfDelimiting_scalar k).ensures_le (takesAtLeast_scalar k)).map fun _ _ h => h
  | bool => exact (selfDelimiting_bool.ensures_le takesAtLeast_bool).map fun _ _ h => h
  | text => exact (selfDelimiting_text.ensures_le takesAtLeast_text).map fun _ _ h => h
  | duration => exact (selfDelimiting_duration.ensures_le takesAtLeast_duration).map fun _ _ h => h
  | timestamp =>
    exact (selfDelimiting_timestamp.ensures_le takesAtLeast_timestamp).map fun _ _ h => h
  | option t ih =>
    refine (selfDelimiting_presence.ensures_le takesAtLeast_presence).bind fun there first h => ?_
    split
    · refine ih.map fun v second hv => ?_
      rw [List.length_append]
      exact Nat.add_le_add h ((Nat.le_add_left _ _).trans hv)
    · exact ensures_pure (by rwa [List.append_nil])
  | seq t =>
    refine ensures_length_four.bind fun count first h => ?_
    refine (ensures_nodes_repeated (helement t) count).map fun vs second hvs => ?_
    rw [List.length_append, h]
    exact Nat.add_le_add_left hvs 4
  | map kind k x =>
    refine ensures_length_four.bind fun count first h => ?_
    refine (ensures_nodes_readEntries (helement k) (helement x) kind count).map
      fun es second hes => ?_
    rw [List.length_append, h]
    exact Nat.add_le_add_left hes 4
  | named name => exact hnamed name

theorem ensures_nodes_readFields (fields : List Field) :
    (readFields element named fields).Ensures fun vs taken =>
      fewestOfFields fewest fields + weight * Value.nodesOfFields schema target scope vs fields ≤
        taken.length := by
  induction fields with
  | nil => exact ensures_pure (Nat.zero_le _)
  | cons field fields ih =>
    refine (field.type.ensures_nodes helement hnamed).bind fun v first hv =>
      ih.map fun vs second hvs => ?_
    have hfewest : fewestOfFields fewest (field :: fields) =
      field.type.fewestWith fewest + fewestOfFields fewest fields := List.sum_cons
    rw [Value.nodesOfFields, Nat.mul_add, List.length_append, hfewest]
    omega

/-- The bytes of a value of a declared type pay for the nodes in its fields. The value may be a
node itself. -/
theorem Decl.ensures_nodes {outer : Schema} {name : String} {decl : Decl}
    (hfind : outer.find name = (decl, scope)) :
    (decl.readWith element named name).Ensures fun v taken =>
      decl.fewestWith fewest + weight * v.nodes schema target outer (.named name) ≤
        taken.length + if (decl, scope) = target then weight else 0 := by
  have hself : ∀ count : Nat, weight * ((if (decl, scope) = target then 1 else 0) + count) =
      (if (decl, scope) = target then weight else 0) + weight * count := by
    intro count
    rw [Nat.mul_add, mul_ite, Nat.mul_one, Nat.mul_zero]
  cases decl with
  | record fields =>
    refine (ensures_nodes_readFields helement hnamed fields).map fun vs taken hvs => ?_
    rw [Value.nodes, hfind, hself]
    simp only [fewestWith, fieldsAt]
    omega
  | enumeration variants =>
    refine ((selfDelimiting_scalar .i32).ensures_le (takesAtLeast_scalar .i32)).bind
      fun discriminant first hfirst => ?_
    cases hvariant : findVariant discriminant variants with
    | none => exact ensures_fail _
    | some found =>
      obtain ⟨position, variant⟩ := found
      have hat := (eq_of_findVariant hvariant).1
      have hsmallest := List.min?_getD_le_of_mem (k := 0) (List.mem_map_of_mem (f := fun variant =>
        fewestOfFields fewest variant.fields) (List.mem_of_getElem? hat))
      refine (ensures_nodes_readFields helement hnamed _).map fun vs second hvs => ?_
      rw [Value.nodes, hfind, hself, List.length_append]
      simp only [fewestWith, fieldsAt, hat, Option.elim_some]
      have hsize : Scalar.i32.size = 4 := rfl
      omega

end Composite
end Weight

namespace Schema

variable {schema : Schema} {element : Ty → Reader Value} {weight : Nat} {target : Decl × Schema}

/-- What a name takes at least, where the scope has at most `limit` declarations; nothing is said
of larger scopes. -/
def fewestUpTo (limit : Nat) (scope : Schema) (name : String) : Nat :=
  if scope.length ≤ limit then scope.fewestNamed name else 0

theorem fewestUpTo_of_le {limit : Nat} {scope : Schema} (h : scope.length ≤ limit) :
    fewestUpTo limit scope = scope.fewestNamed :=
  funext fun _ => if_pos h

theorem fewestUpTo_cons_length (d : String × Decl) (earlier : Schema) (name : String) :
    fewestUpTo earlier.length (d :: earlier) name = 0 :=
  if_neg (Nat.not_succ_le_self _)

theorem fewestUpTo_cons_of_ne {limit : Nat} {earlier : Schema} {declared name : String}
    {decl : Decl} (h : declared ≠ name) :
    fewestUpTo limit ((declared, decl) :: earlier) name ≤ fewestUpTo limit earlier name := by
  unfold fewestUpTo
  rw [fewestNamed, if_neg h, List.length_cons]
  split_ifs <;> omega

theorem fewestUpTo_cons_self {limit : Nat} {earlier : Schema} {name : String} {decl : Decl} :
    fewestUpTo limit ((name, decl) :: earlier) name ≤
      decl.fewestWith (fewestUpTo limit earlier) := by
  by_cases hle : ((name, decl) :: earlier).length ≤ limit
  · rw [fewestUpTo_of_le hle, fewestUpTo_of_le (Nat.le_of_succ_le hle), fewestNamed, if_pos rfl]
  · rw [fewestUpTo, if_neg hle]
    exact Nat.zero_le _

/-- A node is paid for by what its type takes at least: the names that the type may use outside
a count stand before it, so the type is not among them. -/
theorem ensures_nodes_readNamed (hweight : weight ≤ target.1.fewestWith target.2.fewestNamed)
    (helement : ∀ t, (element t).Ensures fun v taken =>
      weight * v.nodes schema target schema t ≤ taken.length) (scope : Schema) (name : String) :
    (scope.readNamed element name).Ensures fun v taken =>
      fewestUpTo target.2.length scope name +
        weight * v.nodes schema target scope (.named name) ≤ taken.length := by
  induction scope generalizing name with
  | nil =>
    refine ensures_pure ?_
    have hnodes : weight * (Value.record []).nodes schema target [] (.named name) = 0 := by
      by_cases htarget : (Decl.record [], []) = target
      · subst htarget
        rw [Nat.eq_zero_of_le_zero hweight, Nat.zero_mul]
      · rw [Value.nodes, find, if_neg htarget]
        rfl
    rw [hnodes]
    unfold fewestUpTo
    split <;> exact le_rfl
  | cons d earlier ih =>
    obtain ⟨declared, decl⟩ := d
    unfold readNamed
    split
    · rename_i hname
      subst hname
      have hfind : find ((declared, decl) :: earlier) declared = (decl, earlier) := if_pos rfl
      refine (decl.ensures_nodes helement ih hfind).mono fun v taken h => ?_
      split at h
      · rename_i htarget
        subst htarget
        simp only [fewestUpTo_of_le le_rfl, fewestUpTo_cons_length] at hweight h ⊢
        omega
      · exact (Nat.add_le_add_right fewestUpTo_cons_self _).trans h
    · rename_i hname
      have hfind : find ((declared, decl) :: earlier) name = find earlier name := if_neg hname
      refine (ih name).mono fun v taken h => ?_
      rw [Value.nodes_congr hfind]
      exact (Nat.add_le_add_right (fewestUpTo_cons_of_ne hname) _).trans h

theorem ensures_nodes_elementReader
    (hweight : weight ≤ target.1.fewestWith target.2.fewestNamed) (schema : Schema) (levels : Nat)
    (t : Ty) : (schema.elementReader levels t).Ensures fun v taken =>
      weight * v.nodes schema target schema t ≤ taken.length := by
  induction levels generalizing t with
  | zero => exact ensures_fail _
  | succ levels ih =>
    have hread := t.ensures_nodes ih (ensures_nodes_readNamed hweight ih schema)
    rw [← readWithin_eq] at hread
    exact hread.mono fun v taken h => (Nat.le_add_left _ _).trans h

/-- How many values of the type called `name` stand in `v`, a value of type `t`. -/
def nodes (schema : Schema) (name : String) (t : Ty) (v : Value) : Nat :=
  v.nodes schema (schema.find name) schema t

/-- The bytes of a value bound its nodes. -/
theorem ensures_nodes_read (schema : Schema) (name : String) (t : Ty) :
    (schema.read t).Ensures fun v taken =>
      schema.fewestBytes (.named name) * schema.nodes name t v ≤ taken.length := by
  intro bytes rest v hread
  have hweight := (schema.fewestNamed_eq name).le
  exact ensures_nodes_elementReader hweight schema (bytes.length + 1) t bytes rest v hread

/-! ## Labelled trees -/

/-- Whether `name` stands for a labelled tree, a record of a text and the nodes below it. -/
def IsTree (schema : Schema) (name : String) : Prop :=
  ∃ label children earlier, schema.find name =
    (.record [⟨label, .text⟩, ⟨children, .seq (.named name)⟩], earlier)

end Schema

namespace Value

/-- The bytes of a text, without those of its length. -/
def textLength : Value → Nat
  | .text s => (Bytes.ofText s).length
  | _ => 0

/-- The bytes of the texts among the values. -/
def textBytes (vs : List Value) : Nat := (vs.map textLength).sum

theorem textBytes_append (vs ws : List Value) :
    textBytes (vs ++ ws) = textBytes vs + textBytes ws := by
  rw [textBytes, List.map_append, List.sum_append]
  rfl

theorem textBytes_tree (s : String) (vs : List Value) :
    textBytes (record [.text s, .seq vs]).parts =
      (Bytes.ofText s).length + textBytes (allParts vs) := by
  simp [parts, allParts, textBytes, textLength]

end Value

namespace Schema

variable {schema : Schema} {element : Ty → Reader Value} {name : String}

theorem nodes_tree {label children : String} {earlier : Schema} (hfind : schema.find name =
      (.record [⟨label, .text⟩, ⟨children, .seq (.named name)⟩], earlier)) (s : String)
    (vs : List Value) : schema.nodes name (.named name) (.record [.text s, .seq vs]) =
      1 + Value.nodesOfAll schema (schema.find name) vs (.named name) := by
  rw [nodes, Value.nodes, if_pos rfl, hfind]
  simp only [Decl.fieldsAt, Value.nodesOfFields, Value.nodes, Nat.zero_add, Nat.add_zero]

theorem ensures_readFields_pair {named : String → Reader Value} {f g : Field}
    {P Q : Value → Bytes → Prop} (hf : (f.type.readWith element named).Ensures P)
    (hg : (g.type.readWith element named).Ensures Q) :
    (readFields element named [f, g]).Ensures fun vs taken =>
      ∃ v w first second, vs = [v, w] ∧ taken = first ++ second ∧ P v first ∧ Q w second := by
  have hlast : (readFields element named [g]).Ensures fun vs taken =>
      ∃ w, vs = [w] ∧ Q w taken := by
    refine hg.bind fun w second hw => ensures_pure ?_
    rw [List.append_nil]
    exact ⟨w, rfl, hw⟩
  refine hf.bind fun v first hv => hlast.map fun vs second hvs => ?_
  obtain ⟨w, rfl, hw⟩ := hvs
  exact ⟨v, w, first, second, rfl, rfl, hv, hw⟩

section Fields

variable {named : String → Reader Value}

theorem ensures_label : (Ty.text.readWith element named).Ensures fun v taken =>
    ∃ s, v = .text s ∧ taken.length = 4 + (Bytes.ofText s).length :=
  ensures_text_length.map fun s _ h => ⟨s, rfl, h⟩

/-- The nodes below take what each of them takes, behind a count. -/
theorem ensures_children (helement : (element (.named name)).Ensures fun v taken =>
      taken.length = 8 * schema.nodes name (.named name) v + Value.textBytes v.parts) :
    ((Ty.seq (.named name)).readWith element named).Ensures fun v taken =>
      ∃ vs, v = .seq vs ∧ taken.length = 4 +
        (8 * Value.nodesOfAll schema (schema.find name) vs (.named name) +
          Value.textBytes (Value.allParts vs)) := by
  refine ensures_length_four.bind fun count first hfirst => ?_
  have hall := helement.repeated (Q := fun vs taken => taken.length =
    8 * Value.nodesOfAll schema (schema.find name) vs (.named name) +
      Value.textBytes (Value.allParts vs)) rfl (fun v vs first second hv hvs => by
        rw [List.length_append, hv, hvs, Value.nodesOfAll, Value.allParts, Value.textBytes_append,
          nodes]
        omega) count
  refine hall.map fun vs second hvs => ⟨vs, rfl, ?_⟩
  rw [List.length_append, hfirst, hvs]

end Fields

theorem IsTree.ensures_elementReader (h : schema.IsTree name) (levels : Nat) :
    (schema.elementReader levels (.named name)).Ensures fun v taken =>
      taken.length = 8 * schema.nodes name (.named name) v + Value.textBytes v.parts := by
  obtain ⟨label, children, earlier, hfind⟩ := h
  induction levels with
  | zero => exact ensures_fail _
  | succ levels ih =>
    have hread : schema.elementReader (levels + 1) (.named name) =
        schema.readNamed (schema.elementReader levels) name := schema.readWithin_eq levels _
    rw [hread, readNamed_eq, hfind]
    refine (ensures_readFields_pair ensures_label (ensures_children ih)).map
      fun _ taken hfields => ?_
    obtain ⟨_, _, first, second, rfl, rfl, ⟨s, rfl, hs⟩, vs, rfl, hvs⟩ := hfields
    rw [nodes_tree hfind, Value.textBytes_tree, List.length_append, hs, hvs]
    omega

/-- Of a tree, the bytes that are read are eight for each node and those of the labels. -/
theorem IsTree.ensures_read (h : schema.IsTree name) :
    (schema.read (.named name)).Ensures fun v taken =>
      taken.length = 8 * schema.nodes name (.named name) v + Value.textBytes v.parts :=
  fun bytes rest v hread => h.ensures_elementReader (bytes.length + 1) bytes rest v hread

theorem isTree_specimen : Specimens.schema.IsTree "Tree" := ⟨"label", "children", _, rfl⟩

/-! ## The law of recursive reads -/

/-- How reads of types that contain themselves proceed and end, and what their nodes take. -/
structure RecursionLaw (schema : Schema) : Prop where
  /-- A read is made of the reads of what its type is built from. -/
  read_eq : ∀ t, schema.read t = t.readWith schema.read (schema.readNamed schema.read)
  /-- A read that is started behind a count has fewer bytes before it than the read that
  started it. -/
  starts_shorter : ∀ {t u bytes inner}, schema.Starts schema t bytes u inner →
    inner.length + 4 ≤ bytes.length
  /-- Those that are started decide what the read comes to. -/
  started_decide : ∀ {element t bytes},
    (∀ u inner, schema.Starts schema t bytes u inner → element u inner = schema.read u inner) →
      t.readWith element (schema.readNamed element) bytes = schema.read t bytes
  /-- So it comes to the same whatever is to be read below as many levels as the buffer has
  counts, and ends. -/
  ends : ∀ deepest {levels} t {bytes : Bytes}, bytes.length < 4 * levels →
    schema.nested deepest levels t bytes = schema.read t bytes
  /-- The bytes that are read bound the nodes of any type in the value. -/
  nodes_le : ∀ name t {bytes v rest}, schema.read t bytes = (.ok v, rest) →
    rest.length + schema.fewestBytes (.named name) * schema.nodes name t v ≤ bytes.length
  /-- A tree takes eight bytes for each node and those of its labels. -/
  tree_eq : ∀ {name}, schema.IsTree name → ∀ {bytes v rest},
    schema.read (.named name) bytes = (.ok v, rest) → bytes.length =
      rest.length + (8 * schema.nodes name (.named name) v + Value.textBytes v.parts)

theorem recursionLaw (schema : Schema) : schema.RecursionLaw where
  read_eq := schema.read_eq
  starts_shorter := Starts.length_le
  started_decide := read_of_starts
  ends deepest _ t _ h := nested_eq_read deepest t h
  nodes_le name t bytes v rest hread := by
    obtain ⟨taken, rfl, htaken⟩ := schema.ensures_nodes_read name t bytes rest v hread
    rw [List.length_append]
    omega
  tree_eq htree bytes v rest hread := by
    obtain ⟨taken, rfl, htaken⟩ := htree.ensures_read bytes rest v hread
    rw [List.length_append, htaken, Nat.add_comm]

theorem fewestBytes_expr : Specimens.schema.fewestBytes (.named "Expr") = 8 := by decide

/-- Reads of types that contain themselves end, and the bytes they take account for the nodes of
what they make: eight for each node of a labelled tree, besides its labels, and at least eight
for each node of an expression. -/
theorem recursion_law :
    (∀ schema : Schema, schema.RecursionLaw) ∧ Specimens.schema.IsTree "Tree" ∧
      ∀ bytes v rest, Specimens.schema.read (.named "Expr") bytes = (.ok v, rest) →
        Specimens.schema.nodes "Expr" (.named "Expr") v ≤ (bytes.length - rest.length) / 8 := by
  refine ⟨recursionLaw, isTree_specimen, fun bytes v rest hread => ?_⟩
  have hnodes := (recursionLaw Specimens.schema).nodes_le "Expr" _ hread
  rw [fewestBytes_expr] at hnodes
  omega

/-- A tree with one child is read from its seventeen bytes, the child from the last eight of
them. With a count that promises more children than there are bytes nothing is read. -/
theorem recursion_law_tree :
    let bytes : Bytes := [0, 0, 0, 1, 97, 0, 0, 0, 1, 0, 0, 0, 0, 0, 0, 0, 0]
    let tree : Value := .record [.text "a", .seq [.record [.text "", .seq []]]]
    Specimens.schema.read (.named "Tree") bytes = (.ok tree, []) ∧
      Specimens.schema.nodes "Tree" (.named "Tree") tree = 2 ∧ Value.textBytes tree.parts = 1 ∧
      bytes.length = 0 + (8 * 2 + 1) ∧
      Specimens.schema.Starts Specimens.schema (.named "Tree") bytes (.named "Tree")
        [0, 0, 0, 0, 0, 0, 0, 0] ∧ (8 : Nat) + 4 ≤ bytes.length ∧
      (Specimens.schema.read (.named "Tree") [0, 0, 0, 0, 0x7f, 0xff, 0xff, 0xff]).1 =
        .error (.unexpectedEnd 4 0) := by
  intro bytes tree
  have hread : Specimens.schema.read (.named "Tree") bytes = (.ok tree, []) := by rfl
  have hnodes : Specimens.schema.nodes "Tree" (.named "Tree") tree = 2 := by rfl
  have htexts : Value.textBytes tree.parts = 1 := by rfl
  have hlaw := recursion_law.1 Specimens.schema
  have hchild : Specimens.schema.Starts Specimens.schema (.named "Tree") bytes (.named "Tree")
      [0, 0, 0, 0, 0, 0, 0, 0] := by
    have hfind : ∃ earlier, Specimens.schema.find "Tree" = (.record ([⟨"label", .text⟩] ++
        ⟨"children", .seq (.named "Tree")⟩ :: []), earlier) := ⟨_, rfl⟩
    obtain ⟨earlier, hfind⟩ := hfind
    have hlabel : readFields Specimens.schema.read (earlier.readNamed Specimens.schema.read)
        [⟨"label", .text⟩] bytes = (.ok [.text "a"], bytes.drop 5) := by rfl
    have hcount : Reader.length (bytes.drop 5) = (.ok 1, bytes.drop 9) := by rfl
    have hfirst : repeated 0 (Specimens.schema.read (.named "Tree")) (bytes.drop 9) =
        (.ok [], bytes.drop 9) := rfl
    exact .field hfind hlabel (.element hcount Nat.one_pos hfirst)
  have hexact := hlaw.tree_eq recursion_law.2.1 hread
  rw [hnodes, htexts] at hexact
  exact ⟨hread, hnodes, htexts, hexact, hchild, hlaw.starts_shorter hchild, by rfl⟩

end Schema
end CoreBridge.Wire
