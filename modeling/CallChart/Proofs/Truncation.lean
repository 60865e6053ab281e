import CallChart.Proofs.Chains

/-!
# A limit cuts off what is deeper and nothing else

The depth of a call is the number of expansions that it stands in, which is
the number of calls that lead to it. Without a limit a listing goes as deep as
the guard against circles lets it.

**The law** (`depthLimit_truncates`): with a limit the listing is the one
without, less the calls that are deeper than the limit. So the limit changes
neither what the guard decides nor the calls beside those that it cuts off.
A chain of expansions repeats no function, so a limit that is as large as the
number of functions in the index other than the entry function cuts off
nothing.

The law is proved on the sites of the calls (`CallGraph.sites_some`), where the
depth can be read off the positions.
-/

namespace CallChart

namespace CallGraph

/-- The number of expansions that a call stands in: one for each call that leads to it. -/
def Site.depth (site : Site) : Nat := site.positions.length - 1

variable {g : CallGraph} {ancestors : Finset FunctionKey} {depth : Nat} {caller : String}
  {callees : List FunctionKey} {key : FunctionKey} {n : Nat}

/-! ## The sites with a limit -/

/-- The limit cuts off the deeper ones of the calls in a body and after them, if it does so after
each call. -/
theorem sites_some_of (room : depth ≤ n)
    (below : ∀ key, g.sitesBelow (some n) ancestors depth key =
      (g.sitesBelow none ancestors depth key).filter (depth + ·.positions.length ≤ n)) :
    g.sites (some n) ancestors depth caller callees =
      (g.sites none ancestors depth caller callees).filter
        (depth + ·.positions.length ≤ n + 1) := by
  rw [sites, sites, List.filter_flatMap]
  congr 1
  funext callee
  -- the call itself stands no deeper than the limit
  rw [List.filter_cons_of_pos (by simpa using room), below, List.filter_map]
  refine congrArg (_ :: List.map _ ·) (List.filter_congr fun site _ => ?_)
  rw [Function.comp, Site.below, List.length_cons, decide_eq_decide]
  omega

/-- After the call of a function, the limit cuts off the calls that are deeper. By induction on the
functions that are left: inside one more expansion the positions are one shorter. -/
theorem sitesBelow_some (key : FunctionKey) :
    g.sitesBelow (some n) ancestors depth key =
      (g.sitesBelow none ancestors depth key).filter (depth + ·.positions.length ≤ n) := by
  induction ancestors using g.ancestors_induction generalizing depth key with
  | inside ancestors ih =>
    cases found : g.callees? key with
    | none => rw [sitesBelow_of_none found, sitesBelow_of_none found, List.filter_nil]
    | some callees =>
      rw [sitesBelow_of_some found, sitesBelow_of_some found]
      by_cases fresh : key ∉ ancestors
      · have unlimited : key ∉ ancestors ∧ (none : Option Nat).all (depth < ·) = true := ⟨fresh, rfl⟩
        rw [if_pos unlimited]
        by_cases room : depth < n
        · have admitted : key ∉ ancestors ∧ (some n).all (depth < ·) = true :=
            ⟨fresh, by simpa using room⟩
          rw [if_pos admitted,
            sites_some_of room (ih key (mem_keys_of_callees? found) fresh)]
          refine List.filter_congr fun site _ => ?_
          rw [decide_eq_decide]
          omega
        · -- every call in the body is deeper than the limit
          rw [if_neg fun admitted => room (by simpa using admitted.2)]
          refine (List.filter_eq_nil_iff.mpr fun site mem => ?_).symm
          have := List.length_pos_iff.mpr (positions_ne_nil mem)
          rw [decide_eq_true_eq]
          omega
      · rw [if_neg fun admitted => fresh admitted.1, if_neg fun admitted => fresh admitted.1,
          List.filter_nil]

/-- **The sites with a limit are those without that are no deeper.** -/
theorem sites_some :
    g.sites (some n) ancestors 0 caller callees =
      (g.sites none ancestors 0 caller callees).filter (·.depth ≤ n) := by
  rw [sites_some_of (Nat.zero_le n) sitesBelow_some]
  refine List.filter_congr fun site _ => ?_
  rw [decide_eq_decide, Site.depth]
  omega

/-! ## How deep a site can be -/

/-- A chain goes through functions that have a body. -/
theorem mem_keys_of_chainAt? {ps : List Nat} {chain : Chain}
    (found : g.chainAt? callees ps = some chain) : ∀ key ∈ chain.above, key ∈ g.keys := by
  induction ps generalizing callees chain with
  | nil => cases found
  | cons p ps ih =>
    by_cases more : ps = []
    · subst more
      obtain ⟨_, _, rfl⟩ := chainAt?_singleton_iff.mp found
      exact fun _ mem => nomatch mem
    · obtain ⟨first, next, rest, _, hnext, hrest, rfl⟩ := (chainAt?_cons_iff more).mp found
      intro key mem
      rcases List.mem_cons.mp mem with rfl | mem
      · exact mem_keys_of_callees? hnext
      · exact ih hrest key mem

/-- A chain goes through one function less than it has positions. -/
theorem length_of_chainAt? {ps : List Nat} {chain : Chain}
    (found : g.chainAt? callees ps = some chain) : ps.length = chain.above.length + 1 := by
  induction ps generalizing callees chain with
  | nil => cases found
  | cons p ps ih =>
    by_cases more : ps = []
    · subst more
      obtain ⟨_, _, rfl⟩ := chainAt?_singleton_iff.mp found
      rfl
    · obtain ⟨_, _, rest, _, _, hrest, rfl⟩ := (chainAt?_cons_iff more).mp found
      rw [List.length_cons, ih hrest]
      rfl

/-- **The depth of a call is the number of functions that its chain goes through.** -/
theorem exists_chain_of_mem_sites {entry : FunctionKey} {site : Site}
    (mem : site ∈ g.sites none {entry} 0 caller callees) :
    ∃ chain, g.chainAt? callees site.positions = some chain ∧ chain.Admissible entry none ∧
      site.call = chain.callFrom caller ∧ site.depth = chain.above.length := by
  obtain ⟨chain, found, admissible, hcall⟩ := mem_sites_entry.mp mem
  refine ⟨chain, found, admissible, hcall, ?_⟩
  rw [Site.depth, length_of_chainAt? found, Nat.add_sub_cancel]

/-- The functions of a chain differ, so it is no longer than there are functions other than the
entry function. -/
theorem depth_le_of_mem_sites {entry : FunctionKey} {site : Site}
    (mem : site ∈ g.sites none {entry} 0 caller callees) :
    site.depth ≤ (g.keys.erase entry).card := by
  obtain ⟨chain, found, admissible, _, hdepth⟩ := exists_chain_of_mem_sites mem
  rw [hdepth, ← List.toFinset_card_of_nodup admissible.distinct]
  refine Finset.card_le_card fun key hkey => ?_
  rw [List.mem_toFinset] at hkey
  exact Finset.mem_erase.mpr ⟨fun same => admissible.apart (same ▸ hkey),
    mem_keys_of_chainAt? found key hkey⟩

end CallGraph

/-! ## The law -/

namespace Trace

variable (index : Index) (withArguments : Bool) (unit : SourceUnit) (function : String)

/-- The calls of a unit's function without a limit, each with the positions that lead to it. -/
def sitesOf : List CallGraph.Site :=
  (unit.entryCalls? withArguments function).elim [] fun entry =>
    (index.callGraph withArguments).sites none {entry.1} 0 entry.1.owner entry.2

variable {index withArguments unit function}

/-- A call has a site when the unit has the function, and then the site is one of the listing that
starts there. -/
theorem mem_sitesOf {site : CallGraph.Site} :
    site ∈ sitesOf index withArguments unit function ↔
      ∃ entry callees, unit.entryCalls? withArguments function = some (entry, callees) ∧
        site ∈ (index.callGraph withArguments).sites none {entry} 0 entry.owner callees := by
  rw [sitesOf]
  cases unit.entryCalls? withArguments function with
  | none => simp
  | some entry =>
    obtain ⟨key, callees⟩ := entry
    simp

/-- The sites are in the order of their positions. -/
theorem pairwise_sitesOf :
    (sitesOf index withArguments unit function).Pairwise (·.positions < ·.positions) := by
  rw [sitesOf]
  cases unit.entryCalls? withArguments function with
  | none => exact .nil
  | some entry => exact CallGraph.pairwise_sites

/-- The sites have the calls of the listing without a limit. -/
theorem map_call_sitesOf :
    (sitesOf index withArguments unit function).map CallGraph.Site.call =
      (ofUnit index ⟨none, withArguments⟩ unit function).calls := by
  rw [calls_ofUnit, sitesOf]
  cases unit.entryCalls? withArguments function with
  | none => rfl
  | some entry => exact CallGraph.map_call_sites

/-- With a limit, the calls are those of the sites that are no deeper. -/
theorem map_call_filter_sitesOf (n : Nat) :
    ((sitesOf index withArguments unit function).filter (·.depth ≤ n)).map CallGraph.Site.call =
      (ofUnit index ⟨some n, withArguments⟩ unit function).calls := by
  rw [calls_ofUnit, sitesOf]
  cases unit.entryCalls? withArguments function with
  | none => rfl
  | some entry =>
    show (List.filter _ (CallGraph.sites _ none _ 0 _ _)).map _ = CallGraph.listing _ (some n) _ 0 _ _
    rw [← CallGraph.sites_some]
    exact CallGraph.map_call_sites

/-- No site is deeper than there are functions in the index other than the entry function. -/
theorem depth_le_of_mem_sitesOf {site : CallGraph.Site}
    (mem : site ∈ sitesOf index withArguments unit function) :
    site.depth ≤ (index.functionKeys.filter (unit.entryKey? function ≠ some ·)).length := by
  obtain ⟨entry, callees, found, mem⟩ := mem_sitesOf.mp mem
  refine (CallGraph.depth_le_of_mem_sites mem).trans (le_of_eq ?_)
  rw [SourceUnit.entryKey?_of_entryCalls? found, Index.callGraph,
    ← List.toFinset_card_of_nodup (index.nodup_functionKeys.filter _)]
  congr 1
  ext key
  simp only [Finset.mem_erase, List.mem_toFinset, List.mem_filter, decide_eq_true_eq, ne_eq,
    Option.some.injEq]
  exact and_comm.trans (and_congr_right fun _ => not_congr eq_comm)

/-- The limit has no say in the module that a trace starts from. -/
theorem entryOwner_ofUnit (options options' : TraceOptions) :
    (ofUnit index options unit function).entryOwner =
      (ofUnit index options' unit function).entryOwner := by
  unfold ofUnit
  cases unit.definition? function <;> rfl

end Trace

open CallGraph in
/-- **A limit cuts off the calls that are deeper and nothing else.** The sites are the calls without
a limit, each at the chain of positions that leads to it, and the depth of a call is the number of
functions that its chain goes through. The trace with a limit has the calls that are no deeper, in
their order. So with a smaller limit there are fewer calls of those with a larger one, and a limit
of at least the number of functions in the index other than the entry function changes nothing. -/
theorem depthLimit_truncates (index : Index) (withArguments : Bool) (unit : SourceUnit)
    (function : String) :
    let trace (limit : Option Nat) := Trace.ofUnit index ⟨limit, withArguments⟩ unit function
    let sites := Trace.sitesOf index withArguments unit function
    (sites.map Site.call = (trace none).calls ∧ sites.Pairwise (·.positions < ·.positions) ∧
      ∀ site ∈ sites, ∃ entry callees chain,
        unit.entryCalls? withArguments function = some (entry, callees) ∧
        (index.callGraph withArguments).chainAt? callees site.positions = some chain ∧
        site.call = chain.callFrom entry.owner ∧ site.depth = chain.above.length) ∧
    (∀ n, trace (some n) =
      ⟨(trace none).entryOwner, (sites.filter (·.depth ≤ n)).map Site.call⟩) ∧
    (∀ n m, n ≤ m → (trace (some n)).calls.Sublist (trace (some m)).calls) ∧
    ∀ n, (index.functionKeys.filter (unit.entryKey? function ≠ some ·)).length ≤ n →
      trace (some n) = trace none := by
  intro trace sites
  have limited : ∀ n, trace (some n) =
      ⟨(trace none).entryOwner, (sites.filter (·.depth ≤ n)).map Site.call⟩ := by
    intro n
    rw [Trace.map_call_filter_sitesOf, Trace.entryOwner_ofUnit _ ⟨some n, withArguments⟩]
  refine ⟨⟨Trace.map_call_sitesOf, Trace.pairwise_sitesOf, fun site mem => ?_⟩, limited, ?_, ?_⟩
  · obtain ⟨entry, callees, found, mem⟩ := Trace.mem_sitesOf.mp mem
    obtain ⟨chain, hchain, _, hcall, hdepth⟩ := exists_chain_of_mem_sites mem
    exact ⟨entry, callees, chain, found, hchain, hcall, hdepth⟩
  · intro n m le
    rw [limited, limited]
    refine List.Sublist.map _ (List.monotone_filter_right _ fun site kept => ?_)
    rw [decide_eq_true_eq] at kept ⊢
    exact kept.trans le
  · intro n enough
    have kept : sites.filter (·.depth ≤ n) = sites := by
      refine List.filter_eq_self.mpr fun site mem => ?_
      exact decide_eq_true ((Trace.depth_le_of_mem_sitesOf mem).trans enough)
    rw [limited, kept, Trace.map_call_sitesOf]

/-- A function calls a second one, that one a third, and the third the first and a fourth. With a
limit of one the calls of the third are cut off. Two functions of the index are not the entry
function, and a limit of two changes nothing. -/
theorem depthLimit_truncates_nested :
    let a : ModuleOutline := ⟨"A", [⟨"go", .remoteCall "B" "one" []⟩]⟩
    let b : ModuleOutline := ⟨"B", [⟨"one", .remoteCall "C" "two" []⟩]⟩
    let c : ModuleOutline :=
      ⟨"C", [⟨"two", .both (.remoteCall "A" "go" []) (.remoteCall "D" "three" [])⟩]⟩
    let unit : SourceUnit := ⟨⟨"a.ex"⟩, [a]⟩
    let index := (Index.empty.addUnit unit).addUnit ⟨⟨"b.ex"⟩, [b, c]⟩
    let trace (limit : Option Nat) := Trace.ofUnit index ⟨limit, false⟩ unit "go"
    (trace (some 1)).calls = [⟨"A", "B", "one"⟩, ⟨"B", "C", "two"⟩] ∧
    (trace none).calls =
      [⟨"A", "B", "one"⟩, ⟨"B", "C", "two"⟩, ⟨"C", "A", "go"⟩, ⟨"C", "D", "three"⟩] ∧
    (trace (some 1)).calls.Sublist (trace (some 2)).calls ∧
    (index.functionKeys.filter (unit.entryKey? "go" ≠ some ·)).length ≤ 2 ∧
    trace (some 2) = trace none := by
  intro a b c unit index trace
  obtain ⟨_, _, fewer, same⟩ := depthLimit_truncates index false unit "go"
  have others : (index.functionKeys.filter (unit.entryKey? "go" ≠ some ·)).length ≤ 2 := by decide
  exact ⟨by decide, by decide, fewer 1 2 (by decide), others, same 2 others⟩

end CallChart
