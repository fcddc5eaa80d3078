import BuildPlan.Proofs.Project.Loading
import BuildPlan.Proofs.Store.Merging

/-!
# Splitting a block of values

The nodes of a block of values may be put in two blocks, one behind the other. A document with the
two blocks (`Project.twoBlocks`) fails for the same reason as the document with the one block
(`Project.oneBlock`), but it is not always loaded as the same project. Inside of a block a node
takes the place of the earlier nodes with its name, whatever they are, whereas two blocks are
merged. So if the last node of a name is a block in both parts, one block of values keeps the
entries of the later one alone, and two blocks of values keep the entries of both.

`Project.split_exact` says that this is the only difference. Both documents have the same values if
and only if the later one of two such blocks covers the earlier one (`Project.Divides`). There must
be no other blocks of values, since a merge is not associative: a text of the first block cuts off
what lies there in a block in front of it, also where the second block has a store in its place.
-/

set_option autoImplicit false
set_option relaxedAutoImplicit false

namespace BuildPlan

theorem Kdl.inOrder_append (nodes others : List Node) :
    inOrder (nodes ++ others) = inOrder nodes ++ inOrder others := by
  induction nodes with
  | nil => rfl
  | cons node nodes ih => rw [List.cons_append, inOrder, inOrder, ih, List.append_assoc]

theorem Store.failures_append (nodes others : List Kdl.Node) :
    failures (nodes ++ others) = failures nodes ++ failures others := by
  rw [failures, Kdl.inOrder_append, List.flatMap_append]
  rfl

/-- What a merge leaves under a key is the later value if there is one, unless both are stores and
the later one does not cover the earlier one. -/
theorem Value.overlay_eq_or_iff {later earlier : Option Value} :
    overlay later earlier = later.or earlier ↔
      ∀ new old, later = some (.nested new) → earlier = some (.nested old) → new.Covers old := by
  rcases later with _ | text | new
  · simp [overlay]
  · simp [overlay]
  · rcases earlier with _ | text | old
    · simp [overlay]
    · simp [overlay]
    · simp [overlay, Store.merge_eq_later_iff]

namespace Project

/-- A block of values with some nodes. -/
def valuesBlock (nodes : List Kdl.Node) : Kdl.Node :=
  .block "values" [] nodes

section Parts

variable (nodes rest : List Kdl.Node)

theorem valueBlocks_valuesBlock :
    valueBlocks (valuesBlock nodes :: rest) = nodes :: valueBlocks rest :=
  rfl

theorem stepNodes_valuesBlock : stepNodes (valuesBlock nodes :: rest) = stepNodes rest :=
  rfl

theorem lastSettings?_valuesBlock :
    lastSettings? (valuesBlock nodes :: rest) = lastSettings? rest :=
  rfl

theorem nodeFailures_valuesBlock (repeatedName : RepeatedName) (earlier : List Kdl.Node) :
    nodeFailures repeatedName earlier (valuesBlock nodes) = Store.failures nodes :=
  rfl

end Parts

/-- What is wrong with a node depends only on the names of the steps before it. -/
theorem nodeFailures_congr (repeatedName : RepeatedName) {earlier other : List Kdl.Node}
    (h : stepNames earlier = stepNames other) (node : Kdl.Node) :
    nodeFailures repeatedName earlier node = nodeFailures repeatedName other node := by
  unfold nodeFailures repeatedFailures
  rw [h]

/-! ### One block and two -/

variable (before front back after : List Kdl.Node)

/-- A document with a block of values that has some nodes and then others. -/
def oneBlock : List Kdl.Node :=
  before ++ valuesBlock (front ++ back) :: after

/-- The document with the nodes in two blocks of values, one behind the other. -/
def twoBlocks : List Kdl.Node :=
  before ++ valuesBlock front :: valuesBlock back :: after

theorem stepNodes_twoBlocks : stepNodes (twoBlocks before front back after) =
    stepNodes (oneBlock before front back after) := by
  simp only [twoBlocks, oneBlock, stepNodes_append, stepNodes_valuesBlock]

theorem lastSettings?_twoBlocks :
    lastSettings? (twoBlocks before front back after) =
      lastSettings? (oneBlock before front back after) := by
  simp only [twoBlocks, oneBlock, lastSettings?_append, lastSettings?_valuesBlock]

/-- The same is wrong with both documents. -/
theorem failures_twoBlocks (repeatedName : RepeatedName) :
    failures repeatedName (twoBlocks before front back after) =
      failures repeatedName (oneBlock before front back after) := by
  induction after using List.reverseRecOn with
  | nil =>
    have htwoBlocks : twoBlocks before front back [] =
        before ++ [valuesBlock front] ++ [valuesBlock back] := by
      simp [twoBlocks]
    rw [htwoBlocks, oneBlock, failures_concat, failures_concat, failures_concat]
    simp only [nodeFailures_valuesBlock, Store.failures_append, List.append_assoc]
  | append_singleton after node ih =>
    have htwoBlocks : twoBlocks before front back (after ++ [node]) =
        twoBlocks before front back after ++ [node] := by
      simp [twoBlocks]
    have honeBlock : oneBlock before front back (after ++ [node]) =
        oneBlock before front back after ++ [node] := by
      simp [oneBlock]
    have hnames : stepNames (twoBlocks before front back after) =
        stepNames (oneBlock before front back after) := by
      rw [stepNames, stepNodes_twoBlocks, stepNames]
    rw [htwoBlocks, honeBlock, failures_concat, failures_concat, ih, nodeFailures_congr _ hnames]

variable {before front back after} {project parted : Project}

/-- The values of a document without other blocks of values are those of its block. -/
theorem Declares.declaredBy_values (h : Declares (oneBlock before front back after) project)
    (hothers : valueBlocks (before ++ after) = []) :
    Store.DeclaredBy (front ++ back) project.values := by
  rw [valueBlocks_append, List.append_eq_nil_iff] at hothers
  obtain ⟨layers, hlayers, hvalues⟩ := h.values
  rw [oneBlock, valueBlocks_append, valueBlocks_valuesBlock, hothers.1, hothers.2] at hlayers
  obtain ⟨layer, _, hlayer, hnil, rfl⟩ := List.forall₂_cons_left_iff.1 hlayers
  obtain rfl := List.forall₂_nil_left_iff.1 hnil
  rw [hvalues, List.foldl_cons, List.foldl_nil, Store.empty_merge]
  exact hlayer

/-- The values of two blocks are those of the first one with those of the second one merged into
them, and the rest of the project is that of the one block. -/
theorem Declares.exists_merge (h : Declares (oneBlock before front back after) project)
    (h' : Declares (twoBlocks before front back after) parted)
    (hothers : valueBlocks (before ++ after) = []) :
    ∃ first second, Store.DeclaredBy front first ∧ Store.DeclaredBy back second ∧
      parted = { project with values := first.merge second } := by
  rw [valueBlocks_append, List.append_eq_nil_iff] at hothers
  have hblocks : valueBlocks (twoBlocks before front back after) = [front, back] := by
    rw [twoBlocks, valueBlocks_append, valueBlocks_valuesBlock, valueBlocks_valuesBlock, hothers.1,
      hothers.2, List.nil_append]
  obtain ⟨layers, hlayers, -⟩ := h'.values
  rw [hblocks] at hlayers
  obtain ⟨first, rest, hfirst, hrest, rfl⟩ := List.forall₂_cons_left_iff.1 hlayers
  obtain ⟨second, _, hsecond, hnil, rfl⟩ := List.forall₂_cons_left_iff.1 hrest
  obtain rfl := List.forall₂_nil_left_iff.1 hnil
  refine ⟨first, second, hfirst, hsecond, h'.unique ?_⟩
  exact
    { steps := stepNodes_twoBlocks before front back after ▸ h.steps
      distinct := h.distinct
      values := by
        refine ⟨[first, second], hblocks ▸ .cons hfirst (.cons hsecond .nil), ?_⟩
        rw [List.foldl_cons, List.foldl_cons, List.foldl_nil, Store.empty_merge]
      settings := lastSettings?_twoBlocks before front back after ▸ h.settings }

/-- Nodes of a block of values can be put in two blocks: if the last node of a name is a block among
the nodes of both parts, the later block has something wherever the earlier one does, or cuts the
place off. -/
def Divides (front back : List Kdl.Node) : Prop :=
  ∀ name new old, Kdl.lastGiven? Value.ofNode? name back = some (.nested new) →
    Kdl.lastGiven? Value.ofNode? name front = some (.nested old) → new.Covers old

/-- Splitting a block of values in two is harmless but for blocks with one name. Both documents are
rejected, and with the same error, or both are accepted. If there are no other blocks of values,
then the projects differ at most in their values, and they have the same values if and only if the
nodes can be put in two blocks. In any case one block of values has under each name what the last
node gives, and two blocks have under each name what the last node of the second block gives, merged
into what the last node of the first block gives. -/
theorem split_exact (before front back after : List Kdl.Node) :
    (∀ error, ofNodes (oneBlock before front back after) = .error error ↔
      ofNodes (twoBlocks before front back after) = .error error) ∧
    (valueBlocks (before ++ after) = [] → ∀ project parted,
      ofNodes (oneBlock before front back after) = .ok project →
      ofNodes (twoBlocks before front back after) = .ok parted →
        parted = { project with values := parted.values } ∧
        (parted.values = project.values ↔ Divides front back) ∧
        ∀ name, project.values.get? name =
            (Kdl.lastGiven? Value.ofNode? name back).or
              (Kdl.lastGiven? Value.ofNode? name front) ∧
          parted.values.get? name = Value.overlay (Kdl.lastGiven? Value.ofNode? name back)
            (Kdl.lastGiven? Value.ofNode? name front)) := by
  constructor
  · intro error
    rw [(reports_ofNodes _).eq_error_iff, (reports_ofNodes _).eq_error_iff, failures_twoBlocks]
  · intro hothers project parted hproject hparted
    have hdeclares := declares_of_ofNodes hproject
    have hdeclared := hdeclares.declaredBy_values hothers
    obtain ⟨first, second, hfirst, hsecond, rfl⟩ :=
      hdeclares.exists_merge (declares_of_ofNodes hparted) hothers
    have hone (name : String) : project.values.get? name =
        (Kdl.lastGiven? Value.ofNode? name back).or (Kdl.lastGiven? Value.ofNode? name front) := by
      rw [hdeclared, Kdl.lastGiven?_append]
    have htwo (name : String) : (first.merge second).get? name =
        Value.overlay (Kdl.lastGiven? Value.ofNode? name back)
          (Kdl.lastGiven? Value.ofNode? name front) := by
      rw [Store.get?_merge, hfirst, hsecond]
    refine ⟨rfl, ?_, fun name ↦ ⟨hone name, htwo name⟩⟩
    calc first.merge second = project.values
        ↔ ∀ name, (first.merge second).get? name = project.values.get? name :=
          ⟨fun hsame name ↦ by rw [hsame], Store.ext_get?⟩
      _ ↔ ∀ name, Value.overlay (Kdl.lastGiven? Value.ofNode? name back)
            (Kdl.lastGiven? Value.ofNode? name front) =
              (Kdl.lastGiven? Value.ofNode? name back).or
                (Kdl.lastGiven? Value.ofNode? name front) := by
          simp only [hone, htwo]
      _ ↔ Divides front back := forall_congr' fun name ↦ Value.overlay_eq_or_iff

/-- A block under a name with one number in it. -/
def numberIn (name key : String) (number : Int) : Kdl.Node :=
  .block name [] [.plain key [.argument (.integer number)]]

/-- A block and a text. -/
def firstNodes : List Kdl.Node :=
  [numberIn "a" "c" 1, .plain "b" [.argument (.string "text")]]

/-- A block with all keys of the block in `firstNodes`, and a block in place of the text. -/
def secondNodes : List Kdl.Node :=
  [numberIn "a" "c" 2, numberIn "b" "c" 3]

/-- Nodes that cover those with their names may be put in another block of values. -/
theorem covered_block_split : valueBlocks ([] ++ []) = [] ∧ ∃ project,
    ofNodes (oneBlock [] firstNodes secondNodes []) = .ok project ∧
    ofNodes (twoBlocks [] firstNodes secondNodes []) = .ok project ∧
    Divides firstNodes secondNodes :=
  ⟨rfl, _, rfl, rfl, ((split_exact [] firstNodes secondNodes []).2 rfl _ _ rfl rfl).2.1.1 rfl⟩

/-- The entries of the first of two blocks with one name are lost in one block of values, and kept
in two. -/
theorem repeated_block_lost :
    (∃ project parted, ofNodes (oneBlock [] [numberIn "a" "b" 1] [numberIn "a" "c" 2] []) =
        .ok project ∧
      ofNodes (twoBlocks [] [numberIn "a" "b" 1] [numberIn "a" "c" 2] []) = .ok parted ∧
      project.values.at? ["a", "b"] = none ∧
      parted.values.at? ["a", "b"] = some (.leaf "1")) ∧
    ¬ ∀ front back, (ofNodes (oneBlock [] front back [])).map Project.values =
      (ofNodes (twoBlocks [] front back [])).map Project.values := by
  refine ⟨⟨_, _, rfl, rfl, rfl, rfl⟩, fun hsame ↦ ?_⟩
  have hvalues := Except.ok.inj (hsame [numberIn "a" "b" 1] [numberIn "a" "c" 2])
  have hentries := congrArg (Store.at? · ["a", "b"]) hvalues
  cases hentries

end Project

end BuildPlan
