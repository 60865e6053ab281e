import CallChart.Proofs.Chains

/-!
# The guard against circles loses no call

A function that is being expanded is not expanded again, and at the limit
nothing is expanded. Neither loses a call that is within reach, and none is
made up: the calls of an entry function are those in the bodies of the
functions at a distance that the limit allows (`mem_calls_iff_reached`).

The distance (`CallGraph.Within`) knows no guard: a way to a function may pass
through another one many times, and through the entry function again. It is
enough that a way can be cut short where it repeats a function
(`CallGraph.hasChain_of_within`), so that what is left of it is a chain, and
chains are what is listed (`CallGraph.mem_listing_iff`).
-/

namespace CallChart

namespace CallGraph

variable (g : CallGraph) (entry : FunctionKey) (callees : List FunctionKey)

/-! ## Distance -/

/-- The calls in the body of a function. The body of the entry function is given: it is the one in
its unit, which need not be the one that the graph has under its name. -/
def bodyCalls (key : FunctionKey) : Option (List FunctionKey) :=
  if key = entry then some callees else g.callees? key

def VisiblyCalls (caller callee : FunctionKey) : Prop :=
  ∃ body, g.bodyCalls entry callees caller = some body ∧ callee ∈ body

/-- A function is at most so many calls away from the entry function, each call but the entry
function being of a function that has a body. -/
inductive Within : Nat → FunctionKey → Prop
  | entry (distance : Nat) : Within distance entry
  | call {distance : Nat} {caller callee : FunctionKey} :
    Within distance caller → g.VisiblyCalls entry callees caller callee →
      (g.callees? callee).isSome → Within (distance + 1) callee

variable {g entry callees}

/-- The entry function has the body that is given. -/
theorem bodyCalls_entry : g.bodyCalls entry callees entry = some callees := if_pos rfl

/-- Another function has the body that the graph has. -/
theorem bodyCalls_of_ne {key : FunctionKey} (other : key ≠ entry) :
    g.bodyCalls entry callees key = g.callees? key := if_neg other

/-! ## Chains stay within their length -/

/-- **A chain ends in a call from a function no further away than the chain is long.** -/
theorem within_of_chainAt? {body : List FunctionKey} {ps : List Nat} {chain : Chain}
    (found : g.chainAt? body ps = some chain) {start : FunctionKey} {distance : Nat}
    (within : g.Within entry callees distance start)
    (starts : g.bodyCalls entry callees start = some body) (apart : entry ∉ chain.above) :
    ∃ key, g.Within entry callees (distance + chain.above.length) key ∧
      g.VisiblyCalls entry callees key chain.last ∧
      chain.callFrom start.owner = chain.last.calledBy key.owner := by
  induction ps generalizing body chain start distance with
  | nil => cases found
  | cons p ps ih =>
    by_cases more : ps = []
    · subst more
      obtain ⟨key, hkey, rfl⟩ := chainAt?_singleton_iff.mp found
      exact ⟨start, within, ⟨body, starts, List.mem_of_getElem? hkey⟩, rfl⟩
    · obtain ⟨key, next, rest, hkey, hnext, hrest, rfl⟩ := (chainAt?_cons_iff more).mp found
      obtain ⟨other, apart⟩ := List.ne_and_not_mem_of_not_mem_cons apart
      have called : g.Within entry callees (distance + 1) key :=
        .call within ⟨body, starts, List.mem_of_getElem? hkey⟩ (by rw [hnext]; rfl)
      obtain ⟨last, reached, calls, same⟩ :=
        ih hrest called ((bodyCalls_of_ne other.symm).trans hnext) apart
      refine ⟨last, ?_, calls, (Chain.callFrom_under _ key rest).trans same⟩
      rw [Nat.add_assoc, Nat.add_comm 1] at reached
      exact reached

/-! ## Ways cut short are chains -/

/-- A chain goes on with a call in the body of its last function. -/
theorem exists_chainAt?_snoc {ps : List Nat} {chain : Chain}
    (found : g.chainAt? callees ps = some chain) {next : List FunctionKey} {target : FunctionKey}
    (body : g.callees? chain.last = some next) (mem : target ∈ next) :
    ∃ qs, g.chainAt? callees qs = some ⟨chain.above ++ [chain.last], target⟩ := by
  induction ps generalizing callees chain with
  | nil => cases found
  | cons p ps ih =>
    by_cases more : ps = []
    · subst more
      obtain ⟨key, hkey, rfl⟩ := chainAt?_singleton_iff.mp found
      obtain ⟨q, hq⟩ := List.getElem?_of_mem mem
      refine ⟨[p, q], (chainAt?_cons_iff (List.cons_ne_nil _ _)).mpr ?_⟩
      exact ⟨key, next, ⟨[], target⟩, hkey, body, chainAt?_singleton_iff.mpr ⟨target, hq, rfl⟩, rfl⟩
    · obtain ⟨key, inner, rest, hkey, hinner, hrest, rfl⟩ := (chainAt?_cons_iff more).mp found
      obtain ⟨qs, hqs⟩ := ih hrest body
      refine ⟨p :: qs, (chainAt?_cons_iff (ne_nil_of_chainAt? hqs)).mpr ?_⟩
      exact ⟨key, inner, _, hkey, hinner, hqs, rfl⟩

/-- A chain through a function calls it first and goes on in its body. -/
theorem exists_of_chainAt?_cons {ps : List Nat} {above : List FunctionKey} {key last : FunctionKey}
    (found : g.chainAt? callees ps = some ⟨key :: above, last⟩) :
    ∃ (p : Nat) (next : List FunctionKey) (qs : List Nat), callees[p]? = some key ∧
      g.callees? key = some next ∧ g.chainAt? next qs = some ⟨above, last⟩ := by
  cases ps with
  | nil => cases found
  | cons p ps =>
    by_cases more : ps = []
    · subst more
      obtain ⟨_, _, same⟩ := chainAt?_singleton_iff.mp found
      cases same
    · obtain ⟨key, next, rest, hkey, hnext, hrest, same⟩ := (chainAt?_cons_iff more).mp found
      cases same
      exact ⟨p, next, ps, hkey, hnext, hrest⟩

/-- A chain can be cut short at any function that it goes through. -/
theorem exists_chainAt?_cut {ps : List Nat} {before after : List FunctionKey}
    {key last : FunctionKey} (found : g.chainAt? callees ps = some ⟨before ++ key :: after, last⟩) :
    ∃ qs, g.chainAt? callees qs = some ⟨before, key⟩ := by
  induction before generalizing callees ps with
  | nil =>
    obtain ⟨p, _, _, hkey, _, _⟩ := exists_of_chainAt?_cons found
    exact ⟨[p], chainAt?_singleton_iff.mpr ⟨key, hkey, rfl⟩⟩
  | cons first before ih =>
    obtain ⟨p, next, qs, hfirst, hnext, hqs⟩ := exists_of_chainAt?_cons found
    obtain ⟨rs, hrs⟩ := ih hqs
    refine ⟨p :: rs, (chainAt?_cons_iff (ne_nil_of_chainAt? hrs)).mpr ?_⟩
    exact ⟨first, next, _, hfirst, hnext, hrs, rfl⟩

/-- A chain without repetition that ends in a function, no longer than the distance allows. -/
def HasChain (g : CallGraph) (entry : FunctionKey) (callees : List FunctionKey) (distance : Nat)
    (key : FunctionKey) : Prop :=
  ∃ ps above, g.chainAt? callees ps = some ⟨above, key⟩ ∧ (above ++ [key]).Nodup ∧
    entry ∉ above ++ [key] ∧ above.length < distance

/-- **A way to a function other than the entry function can be cut short to a chain** that repeats
no function: where the way comes back to a function of the chain, the chain ends there. -/
theorem hasChain_of_within {distance : Nat} {key : FunctionKey}
    (within : g.Within entry callees distance key) (other : key ≠ entry) :
    g.HasChain entry callees distance key := by
  induction within with
  | entry => exact absurd rfl other
  | @call distance caller key _ calls body ih =>
    obtain ⟨next, hnext, mem⟩ := calls
    by_cases first : caller = entry
    · -- the call stands in the entry body
      subst first
      rw [bodyCalls_entry] at hnext
      cases hnext
      obtain ⟨p, hp⟩ := List.getElem?_of_mem mem
      refine ⟨[p], [], chainAt?_singleton_iff.mpr ⟨key, hp, rfl⟩, List.nodup_singleton key, ?_,
        Nat.succ_pos distance⟩
      simpa using other.symm
    · rw [bodyCalls_of_ne first] at hnext
      obtain ⟨ps, above, found, distinct, apart, short⟩ := ih first
      obtain ⟨qs, hqs⟩ := exists_chainAt?_snoc found hnext mem
      by_cases again : key ∈ above ++ [caller]
      · obtain ⟨before, after, split⟩ := List.append_of_mem again
        have length := congrArg List.length split
        simp only [List.length_append, List.length_cons, List.length_nil] at length
        rw [split] at hqs
        rw [split, List.append_cons] at distinct apart
        obtain ⟨rs, hrs⟩ := exists_chainAt?_cut hqs
        refine ⟨rs, before, hrs, (List.nodup_append.mp distinct).1, ?_, by omega⟩
        exact fun mem => apart (List.mem_append_left _ mem)
      · refine ⟨qs, above ++ [caller], hqs, ?_, ?_, ?_⟩
        · rw [List.nodup_append_comm, List.singleton_append]
          exact List.nodup_cons.mpr ⟨again, distinct⟩
        · rw [List.mem_append, List.mem_singleton, not_or]
          exact ⟨apart, other.symm⟩
        · rw [List.length_append, List.length_singleton]
          omega

/-- **Every call within reach is the last call of an admissible chain.** -/
theorem exists_chain_of_within {distance : Nat} {key target : FunctionKey} {limit : Option Nat}
    (within : g.Within entry callees distance key)
    (calls : g.VisiblyCalls entry callees key target) (allowed : ∀ n ∈ limit, distance ≤ n) :
    ∃ ps chain, g.chainAt? callees ps = some chain ∧ chain.Admissible entry limit ∧
      chain.callFrom entry.owner = target.calledBy key.owner := by
  obtain ⟨body, hbody, mem⟩ := calls
  by_cases first : key = entry
  · subst first
    rw [bodyCalls_entry] at hbody
    cases hbody
    obtain ⟨p, hp⟩ := List.getElem?_of_mem mem
    exact ⟨[p], ⟨[], target⟩, chainAt?_singleton_iff.mpr ⟨target, hp, rfl⟩,
      ⟨List.nodup_nil, fun mem => (nomatch mem), fun n _ => Nat.zero_le n⟩, rfl⟩
  · rw [bodyCalls_of_ne first] at hbody
    obtain ⟨ps, above, found, distinct, apart, short⟩ := hasChain_of_within within first
    obtain ⟨qs, hqs⟩ := exists_chainAt?_snoc found hbody mem
    refine ⟨qs, ⟨above ++ [key], target⟩, hqs, ⟨distinct, apart, fun n hn => ?_⟩, ?_⟩
    · have := allowed n hn
      rw [List.length_append, List.length_singleton]
      omega
    · simp only [Chain.callFrom, List.map_append, List.map_cons, List.map_nil, List.getLast?_append,
        List.getLast?_singleton, Option.some_or, Option.getD_some]

/-- A call is listed below the entry function alone when it is the last call of an admissible
chain. -/
theorem mem_listing_iff {limit : Option Nat} {caller : String} {call : Call} :
    call ∈ g.listing limit {entry} 0 caller callees ↔
      ∃ ps chain, g.chainAt? callees ps = some chain ∧ chain.Admissible entry limit ∧
        call = chain.callFrom caller := by
  rw [← map_call_sites, List.mem_map]
  constructor
  · rintro ⟨site, mem, rfl⟩
    exact ⟨site.positions, mem_sites_entry.mp mem⟩
  · rintro ⟨ps, chain, found, admissible, rfl⟩
    exact ⟨⟨ps, _⟩, mem_sites_entry.mpr ⟨chain, found, admissible, rfl⟩, rfl⟩

end CallGraph

/-- **The calls of a function are those within reach.** A call is listed when its caller is the
module of a function whose distance from the entry function the limit allows, and the body of that
function makes the call: the body in the unit for the entry function, the body in the index for any
other. -/
theorem mem_calls_iff_reached (index : Index) (options : TraceOptions) {unit : SourceUnit}
    {function : String} {owner : ModuleOutline} {definition : Definition}
    (found : unit.definition? function = some (owner, definition)) (call : Call) :
    let g := index.callGraph options.withArguments
    let entry : FunctionKey := ⟨owner.name, function⟩
    let callees := definition.body.visibleCalls options.withArguments
    call ∈ (Trace.ofUnit index options unit function).calls ↔
      ∃ (key : FunctionKey) (distance : Nat), (∀ n ∈ options.depthLimit, distance ≤ n) ∧
        g.Within entry callees distance key ∧
        g.VisiblyCalls entry callees key ⟨call.callee, call.function⟩ ∧
        key.owner = call.caller := by
  intro g entry callees
  rw [Trace.calls_ofUnit_of_some index options found, CallGraph.mem_listing_iff]
  constructor
  · rintro ⟨ps, chain, hchain, admissible, rfl⟩
    obtain ⟨key, within, calls, same⟩ := CallGraph.within_of_chainAt? hchain (.entry 0)
      CallGraph.bodyCalls_entry admissible.apart
    rw [Nat.zero_add] at within
    rw [same]
    exact ⟨key, chain.above.length, admissible.within, within, calls, rfl⟩
  · rintro ⟨key, distance, allowed, within, calls, hcaller⟩
    obtain ⟨ps, chain, hchain, admissible, same⟩ :=
      CallGraph.exists_chain_of_within within calls allowed
    refine ⟨ps, chain, hchain, admissible, ?_⟩
    rw [same, hcaller]
    rfl

/-- With a limit of one expansion, the call in the body of a function that the entry function calls
is listed, and it is within reach: its function is one call away. -/
theorem mem_calls_iff_reached_limited :
    let go : Definition := ⟨"go", .remoteCall "B" "x" []⟩
    let a : ModuleOutline := ⟨"A", [go, ⟨"y", .remoteCall "B" "x" []⟩]⟩
    let b : ModuleOutline := ⟨"B", [⟨"x", .remoteCall "A" "y" []⟩]⟩
    let unit : SourceUnit := ⟨⟨"a.ex"⟩, [a]⟩
    let index := (Index.empty.addUnit unit).addUnit ⟨⟨"b.ex"⟩, [b]⟩
    let g := index.callGraph false
    unit.definition? "go" = some (a, go) ∧
    ⟨"B", "A", "y"⟩ ∈ (Trace.ofUnit index { depthLimit := some 1 } unit "go").calls ∧
    ∃ (key : FunctionKey) (distance : Nat), (∀ n ∈ some 1, distance ≤ n) ∧
      g.Within ⟨"A", "go"⟩ [⟨"B", "x"⟩] distance key ∧
      g.VisiblyCalls ⟨"A", "go"⟩ [⟨"B", "x"⟩] key ⟨"A", "y"⟩ ∧ key.owner = "B" := by
  intro go a b unit index g
  have found : unit.definition? "go" = some (a, go) := rfl
  have listed : ⟨"B", "A", "y"⟩ ∈
      (Trace.ofUnit index { depthLimit := some 1 } unit "go").calls := by decide
  exact ⟨found, listed, (mem_calls_iff_reached index _ found _).mp listed⟩

end CallChart
