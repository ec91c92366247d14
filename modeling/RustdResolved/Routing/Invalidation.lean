import RustdResolved.Lib.Runs
import RustdResolved.Routing.Links
import RustdResolved.Routing.Mutations

/-! # Changes of the routing and the cached answers

An operation that changes where a query is sent has to raise the generation of the routing and to
flush the cache. An operation either keeps everything that `select` and `link_dns_specs` read
(`Kept`), or does both (`Renewed`), as long as no link gets its entry unreported and none of the
changes that are made one after another fails. -/

namespace RustdResolved.Routing.Invalidation

open List Lib Maps Result Runs Reported Wire.Octets Resolver.Modes
open Query.Store (Cache)
open Table ServerSpecs Mutations Links Links.LinkResolver

variable {changed : Bool} {link : LinkState} {resolver : LinkResolver}
  {routing table : RoutingTable}
  {β : Type} {entries : FiniteMap Int β} {links : List NetworkdLinkState}

/-! ### What queries read -/

theorem Same.trans {a b c : RoutingTable} (h : Same a b) (h' : Same b c) : Same a c :=
  ⟨fun ifindex => (h'.1 ifindex).trans (h.1 ifindex), h'.2.trans h.2⟩

/-- The links in order depend on what is found at each index only. -/
theorem Same.inOrder {table' : RoutingTable} (h : Same table table') :
    table'.inOrder = table.inOrder := by
  have hkeys : table'.links.keys.Perm table.links.keys := by
    refine (perm_ext_iff_of_nodup table'.links.keys_nodup table.links.keys_nodup).mpr fun key => ?_
    rw [← AList.mem_keys, ← AList.mem_keys, ← AList.lookup_isSome, ← AList.lookup_isSome, h.1]
  have hsorted : table'.links.keys.insertionSort (· ≤ ·) =
      table.links.keys.insertionSort (· ≤ ·) := by
    refine List.Perm.eq_of_pairwise' (r := (· ≤ ·)) ?_ ?_ ?_
    · exact pairwise_insertionSort _ _
    · exact pairwise_insertionSort _ _
    · exact (perm_insertionSort _ _).trans (hkeys.trans (perm_insertionSort _ _).symm)
  unfold RoutingTable.inOrder
  rw [hsorted]
  exact filterMap_congr fun ifindex _ => h.1 ifindex

/-- Nothing has changed that queries read, and neither has the cache. -/
structure Kept (resolver resolver' : LinkResolver) : Prop where
  config : resolver'.config = resolver.config
  routing : Same resolver.routing resolver'.routing
  specs : ∀ ifindex, resolver'.linkServerSpecs.lookup ifindex =
    resolver.linkServerSpecs.lookup ifindex
  generation : resolver'.routingGeneration = resolver.routingGeneration
  cache : resolver'.cache = resolver.cache

/-- The generation has been raised, at most this often, and the cache is empty. -/
def Renewed (often : Nat) (resolver resolver' : LinkResolver) : Prop :=
  (∃ raised, 0 < raised ∧ raised ≤ often ∧
    resolver'.routingGeneration = resolver.routingGeneration + UInt64.ofNat raised) ∧
    ∀ key, resolver'.cache.global.stored key = none

/-- What an operation may do. -/
def Follows (often : Nat) (resolver resolver' : LinkResolver) : Prop :=
  Kept resolver resolver' ∨ Renewed often resolver resolver'

section
variable {resolver' resolver'' : LinkResolver} {often often' : Nat}

theorem Kept.linkDnsSpecs (h : Kept resolver resolver') (ifindex : Int) :
    resolver'.linkDnsSpecs ifindex = resolver.linkDnsSpecs ifindex := by
  unfold Resolver.linkDnsSpecs
  rw [h.routing.1, h.specs]

theorem Kept.scopesFor (h : Kept resolver resolver') (name : Text) (ifindex : Option Int) :
    resolver'.scopesFor name ifindex = resolver.scopesFor name ifindex := by
  unfold Resolver.scopesFor Resolver.configuredUpstreams Resolver.configuredFallbackUpstreams
    Table.select domainMatches defaultScopes
  rw [h.config, Same.inOrder h.routing]
  simp only [h.routing.1]

theorem Kept.refl (resolver : LinkResolver) : Kept resolver resolver :=
  ⟨rfl, Mutations.Same.refl _, fun _ => rfl, rfl, rfl⟩

theorem Kept.trans (h : Kept resolver resolver')
    (h' : Kept resolver' resolver'') : Kept resolver resolver'' :=
  ⟨h'.config.trans h.config, Same.trans h.routing h'.routing,
    fun ifindex => (h'.specs ifindex).trans (h.specs ifindex), h'.generation.trans h.generation,
    h'.cache.trans h.cache⟩

theorem Follows.trans (h : Follows often resolver resolver')
    (h' : Follows often' resolver' resolver'') : Follows (often + often') resolver resolver'' := by
  rcases h with hkept | ⟨⟨raised, hpos, hle, hgeneration⟩, hempty⟩
  · rcases h' with hkept' | ⟨⟨raised', hpos', hle', hgeneration'⟩, hempty'⟩
    · exact Or.inl (hkept.trans hkept')
    · refine Or.inr ⟨⟨raised', hpos', by omega, ?_⟩, hempty'⟩
      rw [hgeneration', hkept.generation]
  · rcases h' with hkept' | ⟨⟨raised', hpos', hle', hgeneration'⟩, hempty'⟩
    · refine Or.inr ⟨⟨raised, hpos, by omega, ?_⟩, ?_⟩
      · rw [hkept'.generation, hgeneration]
      · rw [hkept'.cache]
        exact hempty
    · refine Or.inr ⟨⟨raised + raised', by omega, by omega, ?_⟩, hempty'⟩
      rw [hgeneration', hgeneration, UInt64.add_assoc, UInt64.ofNat_add]

end

/-! ### Changes of the table -/

section
variable (table : RoutingTable)

/-- The table has an entry. -/
def Has (ifindex : Int) : Prop :=
  (table.links.lookup ifindex).isSome = true

def Positive : Prop := ∀ ifindex, Has table ifindex → 0 < ifindex

def SameIndices (table' : RoutingTable) : Prop := ∀ ifindex, Has table' ifindex ↔ Has table ifindex

/-- A change that neither reports nor does anything, or that reports. -/
def Quiet : Change → Prop
  | (.error _, table') => Same table table'
  | (.ok changed, table') => changed = false → Same table table'

end

section
variable {table' : RoutingTable} {ifindex : Int} {setting : Setting}

theorem SameIndices.refl (table : RoutingTable) : SameIndices table table := fun _ => Iff.rfl

theorem SameIndices.trans {table'' : RoutingTable} (h : SameIndices table table')
    (h' : SameIndices table' table'') : SameIndices table table'' :=
  fun ifindex => (h' ifindex).trans (h ifindex)

theorem SameIndices.positive (h : SameIndices table table') (hpos : Positive table) :
    Positive table' :=
  fun ifindex hhas => hpos ifindex ((h ifindex).mp hhas)

theorem Quiet.of_truthful {change : Change} (h : Truthful table change) : Quiet table change := by
  obtain ⟨result, table'⟩ := change
  cases result with
  | error error => exact h
  | ok changed =>
    rintro rfl
    by_contra hsame
    cases h.mpr hsame

theorem Has.not_fresh (h : Has table ifindex) : ¬Fresh table ifindex := by
  rintro ⟨-, hnone, -⟩
  rw [Has, hnone] at h
  cases h

theorem has_put_iff {other : Int} :
    Has (table.put link) other ↔ other = link.ifindex ∨ Has table other := by
  unfold Has
  rw [lookup_put]
  split_ifs with heq
  · simp [heq]
  · simp [heq]

theorem sameIndices_put (h : Has table link.ifindex) : SameIndices table (table.put link) := by
  intro other
  rw [has_put_iff, or_iff_right_iff_imp]
  rintro rfl
  exact h

theorem quiet_setterOf (h : Fresh table ifindex → SetsNew setting) :
    Quiet table (setterOf table ifindex setting) := by
  refine Quiet.of_truthful ?_
  rw [setterOf_eq, truthful_update_iff, edit_new_iff]
  exact h

theorem linkMut_positive (hpos : Positive table) (h : table.linkMut ifindex = .ok link) :
    0 < link.ifindex := by
  obtain ⟨error, heq, -⟩ | ⟨found, heq, hlookup⟩ | ⟨heq, hfresh⟩ := linkMut_cases
  · rw [heq] at h
    cases h
  · rw [heq] at h
    cases h
    rw [table.keyed ifindex link hlookup]
    exact hpos ifindex (by rw [Has, hlookup]; rfl)
  · rw [heq] at h
    cases h
    exact hfresh.1

theorem positive_setterOf (hpos : Positive table) (ifindex : Int) (setting : Setting) :
    Positive (setterOf table ifindex setting).2 := by
  have hput : ∀ link : LinkState, 0 < link.ifindex → Positive (table.put link) := by
    intro link hlink other hother
    rcases has_put_iff.mp hother with rfl | hhas
    · exact hlink
    · exact hpos other hhas
  rw [setterOf_eq]
  unfold RoutingTable.update
  cases hlink : table.linkMut ifindex with
  | error error => exact hpos
  | ok link =>
    dsimp only
    cases hedit : edit ifindex setting link with
    | error error => exact hput link (linkMut_positive hpos hlink)
    | ok changed => exact hput changed (edit_ifindex hedit ▸ linkMut_positive hpos hlink)

def Settable : Setting → Prop
  | .domains domains => ∀ domain ∈ domains, ∃ normalized, normalizeDomain domain = .ok normalized
  | .dnssecNegativeTrustAnchors anchors =>
    ∀ anchor ∈ anchors, ∃ normalized, normalizeName anchor = .ok normalized
  | _ => True

theorem exists_edit (h : Settable setting) :
    ∃ changed, edit ifindex setting link = .ok changed := by
  cases setting with
  | domains _ | dnssecNegativeTrustAnchors _ =>
    obtain ⟨normalized, hnormalized⟩ := exists_mapM_ok_iff.mpr h
    exact ⟨_, bind_eq_ok.mpr ⟨normalized, hnormalized, rfl⟩⟩
  | _ => exact ⟨_, rfl⟩

/-- A change of a link that there is succeeds, and is reported. -/
def ReportsAt (ifindex : Int) (change : RoutingTable → Change) : Prop :=
  ∀ table, Positive table → Has table ifindex → ∃ changed table', change table =
    (.ok changed, table') ∧
    SameIndices table table' ∧ (changed = false → Same table table')

/-- **A setting that can be made of a link that there is succeeds**, and is reported. -/
theorem reportsAt_setterOf (setting : Setting) (h : Settable setting) :
    ReportsAt ifindex fun table => setterOf table ifindex setting := by
  intro table hpos hhas
  have hquiet : Quiet table (setterOf table ifindex setting) :=
    quiet_setterOf fun hfresh => absurd hfresh hhas.not_fresh
  obtain ⟨link, hlookup⟩ := Option.isSome_iff_exists.mp hhas
  have hlink : table.linkMut ifindex = .ok link := by
    unfold RoutingTable.linkMut
    rw [validateIfindex_pos (hpos ifindex hhas), ok_bind, hlookup]
  obtain ⟨changed, hedit⟩ := exists_edit h
  dsimp only
  rw [setterOf_eq] at hquiet ⊢
  unfold RoutingTable.update at hquiet ⊢
  rw [hlink] at hquiet ⊢
  dsimp only at hquiet ⊢
  rw [hedit] at hquiet ⊢
  refine ⟨_, _, rfl, sameIndices_put ?_, hquiet⟩
  rw [edit_ifindex hedit, table.keyed ifindex link hlookup]
  exact hhas

theorem reportsAt_revert : ReportsAt ifindex fun table => table.revert ifindex := by
  intro table hpos hhas
  have hquiet := Quiet.of_truthful (truthful_revert table ifindex)
  obtain ⟨link, hlookup⟩ := Option.isSome_iff_exists.mp hhas
  dsimp only
  unfold RoutingTable.revert at hquiet ⊢
  rw [validateIfindex_pos (hpos ifindex hhas), hlookup] at hquiet ⊢
  exact ⟨_, _, rfl, sameIndices_put hhas, hquiet⟩

/-- **Several changes of one link** succeed and are reported if each does and is. -/
theorem tryAll_has {changes : List (RoutingTable → Change)}
    (h : ∀ change ∈ changes, ReportsAt ifindex change) (hpos : Positive table)
    (hhas : Has table ifindex) :
    ∃ changed' table', tryAll changes changed table = (.ok changed', table') ∧
      SameIndices table table' ∧ (changed' = false → changed = false ∧ Same table table') := by
  refine tryAll_quiet (SameIndices table) Mutations.Same.refl (fun _ _ _ => Same.trans)
    changes changed
    table (SameIndices.refl table) ?_
  intro change hchange table' hindices
  obtain ⟨changed', table'', heq, hindices', hquiet⟩ :=
    h change hchange table' (hindices.positive hpos) ((hindices ifindex).mpr hhas)
  exact ⟨changed', table'', heq, hindices.trans hindices', hquiet⟩

theorem revert_not_has (hhas : ¬Has table ifindex) :
    ∃ error, table.revert ifindex = (.error error, table) := by
  have hnone : table.links.lookup ifindex = none := Option.not_isSome_iff_eq_none.mp hhas
  unfold RoutingTable.revert
  rw [hnone]
  cases hvalid : validateIfindex ifindex with
  | error error => exact ⟨error, rfl⟩
  | ok _ => exact ⟨.noSuchLink ifindex, rfl⟩

end

/-! ### Changes of the other tables -/

def SameEntries {β : Type} (entries entries' : FiniteMap Int β) : Prop :=
  ∀ ifindex, entries'.lookup ifindex = entries.lookup ifindex

theorem quiet_removeEntry (entries : FiniteMap Int β) (ifindex : Int)
    (h : (removeEntry entries ifindex).1 = false) :
    SameEntries entries (removeEntry entries ifindex).2 := by
  intro other
  unfold removeEntry at h ⊢
  dsimp only at h ⊢
  by_cases heq : other = ifindex
  · rw [heq, AList.lookup_erase]
    exact (Option.not_isSome_iff_eq_none.mp (by rw [h]; decide)).symm
  · exact AList.lookup_erase_ne heq

theorem quiet_replaceLinkServerSpecs (stored : FiniteMap Int (List DnsServerSpec))
    (entry : Int × List DnsServerSpec) (h : (replaceLinkServerSpecs stored entry).1 = false) :
    SameEntries stored (replaceLinkServerSpecs stored entry).2 := by
  unfold replaceLinkServerSpecs at h ⊢
  split_ifs at h ⊢
  · exact quiet_removeEntry stored entry.1 h
  · exact fun _ => rfl

theorem quiet_retainIndices {keep : Int → Bool} (h : (retainIndices entries keep).1 = false) :
    SameEntries entries (retainIndices entries keep).2 := by
  intro ifindex
  have hall := length_keys_retain_eq_iff.mp (bne_eq_false_iff_eq.mp h)
  refine Option.ext fun value => ?_
  exact lookup_retain.trans (and_iff_left_of_imp (hall ifindex value))

theorem SameEntries.trans (a b c : FiniteMap Int β) (h : SameEntries a b)
    (h' : SameEntries b c) : SameEntries a c := fun ifindex => (h' ifindex).trans (h ifindex)

/-- A list of changes of a map that are quiet one by one. -/
theorem quiet_reportAll {γ : Type} {change : FiniteMap Int β → γ → Bool × FiniteMap Int β}
    (hquiet : ∀ entries a, (change entries a).1 = false → SameEntries entries (change entries a).2)
    {l : List γ} (h : (reportAll change l (changed, entries)).1 = false) :
    changed = false ∧ SameEntries entries (reportAll change l (changed, entries)).2 :=
  (reportAll_quiet (fun _ => True) (fun _ _ => rfl) SameEntries.trans l changed entries trivial
    fun a _ s _ => ⟨trivial, hquiet s a⟩).2 h

/-! ### Policies -/

theorem reapplyOne_spec (hpos : Positive table) (hhas : Has table link.ifindex) :
    SameIndices table (resolver.reapplyOne table link).2 ∧
      ((resolver.reapplyOne table link).1 = false →
        Same table (resolver.reapplyOne table link).2) := by
  obtain ⟨first, table₁, hfirst, hindices₁, hquiet₁⟩ := reportsAt_setterOf
    (.dnsOverTls (resolver.linkPolicy link.ifindex).1) trivial table hpos hhas
  obtain ⟨second, table₂, hsecond, hindices₂, hquiet₂⟩ := reportsAt_setterOf
    (.dnssec (resolver.linkPolicy link.ifindex).2) trivial table₁ (hindices₁.positive hpos)
    ((hindices₁ _).mpr hhas)
  have heq : resolver.reapplyOne table link = (first || second, table₂) := by
    unfold reapplyOne
    dsimp only [setterOf] at hfirst hsecond
    rw [hfirst]
    dsimp only
    rw [hsecond]
    rfl
  rw [heq]
  refine ⟨hindices₁.trans hindices₂, fun hfalse => ?_⟩
  rw [Bool.or_eq_false_iff] at hfalse
  exact Same.trans (hquiet₁ hfalse.1) (hquiet₂ hfalse.2)

/-- **Setting the policies of all links anew** reports what it changes. -/
theorem reapply_spec (hpos : Positive resolver.routing) :
    SameIndices resolver.routing resolver.reapplyLinkSecurityPolicies.2.routing ∧
      (resolver.reapplyLinkSecurityPolicies.1 = false →
        Same resolver.routing resolver.reapplyLinkSecurityPolicies.2.routing) := by
  refine (reportAll_quiet (SameIndices resolver.routing) Mutations.Same.refl
    (fun _ _ _ => Same.trans)
    resolver.routing.inOrder false resolver.routing (SameIndices.refl _) ?_).imp_right
      fun hquiet hfalse => (hquiet hfalse).2
  intro link hlink table htable
  have hhas : Has resolver.routing link.ifindex := by
    rw [Has, RoutingTable.mem_inOrder hlink]
    rfl
  obtain ⟨hindices, hsame⟩ := reapplyOne_spec (htable.positive hpos) ((htable _).mpr hhas)
  exact ⟨htable.trans hindices, hsame⟩

/-! ### What clients set -/

section
variable {ifindex : Int} {setting : Setting} {resolver' : LinkResolver}

/-- The entry is not made unreported: there is one or none can be made, networkd has the link, or
what is set is valid and new. -/
def Enters (resolver : LinkResolver) (ifindex : Int) (setting : Setting) : Prop :=
  resolver.linkIsManaged ifindex = true ∨ (Fresh resolver.routing ifindex → SetsNew setting)

/-- What an operation should do: everything is kept or renewed, and the indices stay positive. -/
def Sound (often : Nat) (resolver resolver' : LinkResolver) : Prop :=
  Follows often resolver resolver' ∧ Positive resolver'.routing

theorem Sound.refl (hpos : Positive resolver.routing) : Sound 1 resolver resolver :=
  ⟨Or.inl (Kept.refl resolver), hpos⟩

theorem Sound.twice (h : Sound 1 resolver resolver') : Sound 2 resolver resolver' :=
  ⟨h.1.trans (Sound.refl h.2).1, h.2⟩

theorem kept_routing (h : Same resolver.routing routing) :
    Kept resolver { resolver with routing := routing } := ⟨rfl, h, fun _ => rfl, rfl, rfl⟩

theorem finishRoutingChange_routing (resolver : LinkResolver) (changed : Bool) :
    (resolver.finishRoutingChange changed).routing = resolver.routing := by
  unfold finishRoutingChange
  split_ifs <;> rfl

theorem sound_kept (h : Same resolver.routing routing) (hpos : Positive routing) :
    Sound 1 resolver { resolver with routing := routing } :=
  ⟨Or.inl (kept_routing h), hpos⟩

/-- **What is reported is followed by a new generation.** -/
theorem sound_finish (hquiet : changed = false → Kept resolver resolver')
    (hgeneration : resolver'.routingGeneration = resolver.routingGeneration)
    (hpos : Positive resolver'.routing) :
    Sound 1 resolver (resolver'.finishRoutingChange changed) := by
  cases changed with
  | false => exact ⟨Or.inl (hquiet rfl), hpos⟩
  | true => exact ⟨Or.inr ⟨⟨1, one_pos, le_refl 1, hgeneration ▸ rfl⟩, fun _ => rfl⟩, hpos⟩

theorem sound_reapply (hpos : Positive resolver'.routing)
    (hquiet : changed = false → Kept resolver resolver')
    (hgeneration : resolver'.routingGeneration = resolver.routingGeneration) :
    Sound 1 resolver (resolver'.reapplyLinkSecurityPolicies.2.finishRoutingChange
      (changed || resolver'.reapplyLinkSecurityPolicies.1)) := by
  obtain ⟨hindices, hreapplied⟩ := reapply_spec hpos
  refine sound_finish (fun hfalse => ?_) hgeneration (hindices.positive hpos)
  obtain ⟨hchanged, hpolicy⟩ := Bool.or_eq_false_iff.mp hfalse
  exact (hquiet hchanged).trans (kept_routing (hreapplied hpolicy))

/-- A setting that can always be made fails only where there can be no link. -/
theorem not_fresh_of_error {error : LinkError} (hset : Settable setting)
    (h : setterOf table ifindex setting = (.error error, routing)) : ¬Fresh table ifindex := by
  rw [setterOf_eq] at h
  unfold RoutingTable.update at h
  obtain ⟨_, _, hfresh⟩ | ⟨link, heq, hlookup⟩ | ⟨heq, -⟩ := linkMut_cases
  · exact hfresh
  · rintro ⟨-, hnone, -⟩
    rw [hnone] at hlookup
    cases hlookup
  · obtain ⟨changed, hedit⟩ := exists_edit hset
    rw [heq] at h
    dsimp only at h
    rw [hedit] at h
    cases h

/-- **A setter fails and nothing has changed, or it reports**, by itself or with what it changes
besides. -/
theorem sound_setter {other : RoutingTable → Bool} {write : RoutingTable → LinkResolver}
    (hpos : Positive resolver.routing)
    (h : (Fresh resolver.routing ifindex → SetsNew setting) ∨
      Settable setting ∧ ∀ routing, other routing = true)
    (hroute : ∀ routing, (write routing).routing = routing ∧
      (write routing).routingGeneration = resolver.routingGeneration)
    (hkept : ∀ routing, other routing = false → Same resolver.routing routing →
      Kept resolver (write routing)) :
    Sound 1 resolver (match setterOf resolver.routing ifindex setting with
      | (.error error, routing) => ((.error error, { resolver with routing := routing }) : Outcome)
      | (.ok changed, routing) =>
        (.ok (), (write routing).finishRoutingChange (changed || other routing))).2 := by
  have hpositive := positive_setterOf hpos ifindex setting
  rcases hchange : setterOf resolver.routing ifindex setting with ⟨error | changed, routing⟩
  · have hquiet := quiet_setterOf (h.elim id fun hset hfresh =>
      absurd hfresh (not_fresh_of_error hset.1 hchange))
    rw [hchange] at hpositive hquiet
    exact sound_kept hquiet hpositive
  · rw [hchange] at hpositive
    refine sound_finish (fun hfalse => ?_) (hroute routing).2 ((hroute routing).1.symm ▸ hpositive)
    obtain ⟨hchanged, hother⟩ := Bool.or_eq_false_iff.mp hfalse
    have hquiet := quiet_setterOf (h.resolve_right fun hset => by simp [hset.2] at hother)
    rw [hchange] at hquiet
    exact hkept routing hother (hquiet hchanged)

theorem sound_setLink (hpos : Positive resolver.routing) (h : Enters resolver ifindex setting) :
    Sound 1 resolver (resolver.setLink ifindex fun table => setterOf table ifindex setting).2 := by
  unfold setLink
  split_ifs with hmanaged
  · exact Sound.refl hpos
  · have hsound := @sound_setter resolver ifindex setting (fun _ => false)
      (fun routing => { resolver with routing := routing }) hpos (.inl (h.resolve_left hmanaged))
      (fun _ => ⟨rfl, rfl⟩) fun _ _ => kept_routing
    simp only [Bool.or_false] at hsound
    exact hsound

theorem sound_setLinkDnsSpecs {specs : List DnsServerSpec} (hpos : Positive resolver.routing)
    (h : Enters resolver ifindex (.dns (specs.map (·.address)))) :
    Sound 1 resolver (resolver.setLinkDnsSpecs ifindex specs).2 := by
  unfold setLinkDnsSpecs
  split_ifs with hmanaged
  · exact Sound.refl hpos
  · exact sound_setter hpos (.inl (h.resolve_left hmanaged)) (fun _ => ⟨rfl, rfl⟩)
      fun _ hother hsame => ⟨rfl, hsame, quiet_replaceLinkServerSpecs _ _ hother, rfl, rfl⟩

theorem replaceOverride_reports [DecidableEq β] {overrides : FiniteMap Int β} {mode : Option β}
    (h : Enters resolver ifindex setting ∨ overrides.lookup ifindex ≠ mode)
    (hmanaged : ¬resolver.linkIsManaged ifindex = true) (hset : Settable setting) :
    (Fresh resolver.routing ifindex → SetsNew setting) ∨
      Settable setting ∧ ∀ _ : RoutingTable, (replaceOverride overrides ifindex mode).1 = true :=
  h.imp (·.resolve_left hmanaged) fun hne => ⟨hset, fun _ => decide_eq_true hne⟩

section
variable (hpos : Positive resolver.routing)
include hpos

theorem sound_setLinkDnsOverTlsOverride {mode : Option TlsMode}
    (h : Enters resolver ifindex (.dnsOverTls (mode.getD resolver.dnsOverTls)) ∨
      resolver.linkDnsOverTlsOverrides.lookup ifindex ≠ mode) :
    Sound 1 resolver (resolver.setLinkDnsOverTlsOverride ifindex mode).2 := by
  unfold setLinkDnsOverTlsOverride
  split_ifs with hmanaged
  · exact Sound.refl hpos
  · exact sound_setter hpos (replaceOverride_reports h hmanaged trivial) (fun _ => ⟨rfl, rfl⟩)
      fun _ _ hsame => ⟨rfl, hsame, fun _ => rfl, rfl, rfl⟩

theorem sound_setLinkDnssecOverride {mode : Option ValidationMode}
    (h : Enters resolver ifindex (.dnssec (mode.getD resolver.dnssec)) ∨
      resolver.linkDnssecOverrides.lookup ifindex ≠ mode) :
    Sound 1 resolver (resolver.setLinkDnssecOverride ifindex mode).2 := by
  unfold setLinkDnssecOverride
  split_ifs with hmanaged
  · exact Sound.refl hpos
  · exact sound_setter hpos (replaceOverride_reports h hmanaged trivial) (fun _ => ⟨rfl, rfl⟩)
      fun _ _ hsame => ⟨rfl, hsame, fun _ => rfl, rfl, rfl⟩

/-- **Reverting a link is always reported.** -/
theorem sound_revertLink (ifindex : Int) : Sound 1 resolver (resolver.revertLink ifindex).2 := by
  unfold revertLink
  split_ifs with hmanaged
  · exact Sound.refl hpos
  by_cases hhas : Has resolver.routing ifindex
  · have hreports : ∀ change ∈ [fun table : RoutingTable => table.revert ifindex,
        fun table => table.setDnsOverTls ifindex resolver.dnsOverTls,
        fun table => table.setDnssec ifindex resolver.dnssec], ReportsAt ifindex change := by
      rw [forall_mem_cons, forall_mem_cons, forall_mem_singleton]
      exact ⟨reportsAt_revert, reportsAt_setterOf (.dnsOverTls resolver.dnsOverTls) trivial,
        reportsAt_setterOf (.dnssec resolver.dnssec) trivial⟩
    obtain ⟨changed, routing, heq, hindices, hquiet⟩ := tryAll_has hreports hpos hhas
    rw [heq]
    refine sound_finish (fun hfalse => ?_) rfl (hindices.positive hpos)
    simp only [Bool.or_eq_false_iff] at hfalse
    exact ⟨rfl, (hquiet hfalse.1.1).2, quiet_removeEntry _ _ hfalse.1.2, rfl, rfl⟩
  · obtain ⟨error, heq⟩ := revert_not_has hhas
    unfold tryAll
    dsimp only
    rw [heq]
    exact sound_kept (Mutations.Same.refl _) hpos

end

end

/-! ### What networkd says -/

/-- The domains and the trust anchors of a link can be set. -/
def ValidNames (link : NetworkdLinkState) : Prop :=
  Settable (.domains link.domains) ∧
    Settable (.dnssecNegativeTrustAnchors link.dnssecNegativeTrustAnchors)

/-- A loop succeeds, and reports what it changes. -/
def Gathers (gathered : Gathered) (outcome : Except LinkError Unit × Gathered) : Prop :=
  ∃ gathered', outcome = (.ok (), gathered') ∧ SameIndices gathered.routing gathered'.routing ∧
    (gathered'.changed = false → gathered.changed = false ∧ Same gathered.routing gathered'.routing)

theorem Gathers.refl (gathered : Gathered) : Gathers gathered (.ok (), gathered) :=
  ⟨gathered, rfl, SameIndices.refl _, fun h => ⟨h, Mutations.Same.refl _⟩⟩

theorem Gathers.after {gathered next : Gathered} {outcome : Except LinkError Unit × Gathered}
    (h : Gathers next outcome) (hindices : SameIndices gathered.routing next.routing)
    (hquiet : next.changed = false → gathered.changed = false ∧
      Same gathered.routing next.routing) :
    Gathers gathered outcome := by
  obtain ⟨gathered', heq, hindices', hquiet'⟩ := h
  refine ⟨gathered', heq, hindices.trans hindices', fun hfalse => ?_⟩
  obtain ⟨hflag, hsame⟩ := hquiet' hfalse
  exact ⟨(hquiet hflag).1, Same.trans (hquiet hflag).2 hsame⟩

theorem dropUnmanaged_spec {networkd incoming : FiniteMap Int NetworkdLinkState}
    (indices : List Int) (gathered : Gathered) (hpos : Positive gathered.routing) :
    Gathers gathered (dropUnmanaged networkd incoming gathered indices) := by
  induction indices generalizing gathered with
  | nil => exact Gathers.refl gathered
  | cons ifindex rest ih =>
    unfold dropUnmanaged
    dsimp only
    split_ifs
    · cases hlookup : gathered.routing.links.lookup ifindex with
      | none => exact ih _ hpos
      | some link =>
        obtain ⟨changed, routing, hrevert, hindices, hquiet⟩ :=
          reportsAt_revert _ hpos (by rw [Has, hlookup]; rfl)
        dsimp only at hrevert ⊢
        rw [hrevert]
        refine (ih _ (hindices.positive hpos)).after hindices fun hflag => ?_
        rw [Bool.or_eq_false_iff] at hflag
        exact ⟨hflag.1, hquiet hflag.2⟩
    · exact ih gathered hpos

theorem networkdChanges_report {link : NetworkdLinkState} (h : ValidNames link) :
    ∀ change ∈ resolver.networkdChanges link, ReportsAt link.ifindex change := by
  unfold networkdChanges
  simp only [forall_mem_cons, not_mem_nil, false_implies, implies_true, and_true]
  exact ⟨reportsAt_setterOf (.dns _) trivial, reportsAt_setterOf (.domains _) h.1,
    reportsAt_setterOf (.defaultRoute _) trivial, reportsAt_setterOf (.llmnr _) trivial,
    reportsAt_setterOf (.multicastDns _) trivial, reportsAt_setterOf (.dnsOverTls _) trivial,
    reportsAt_setterOf (.dnssec _) trivial,
    reportsAt_setterOf (.dnssecNegativeTrustAnchors _) h.2⟩

/-- The second loop succeeds if the names of the links that have an entry are valid. -/
theorem takeManaged_spec (links : List NetworkdLinkState) (gathered : Gathered)
    (hpos : Positive gathered.routing)
    (hvalid : ∀ link ∈ links, Has gathered.routing link.ifindex → ValidNames link) :
    Gathers gathered (resolver.takeManaged gathered links) := by
  induction links generalizing gathered with
  | nil => exact Gathers.refl gathered
  | cons link rest ih =>
    obtain ⟨hlink, hrest⟩ := forall_mem_cons.mp hvalid
    unfold takeManaged
    cases hlookup : gathered.routing.links.lookup link.ifindex with
    | none => exact ih _ hpos hrest
    | some _ =>
      have hhas : Has gathered.routing link.ifindex := by rw [Has, hlookup]; rfl
      obtain ⟨changed, routing, hchanges, hindices, hquiet⟩ :=
        tryAll_has (networkdChanges_report (hlink hhas)) hpos hhas
      rw [hchanges]
      exact (ih _ (hindices.positive hpos) fun other hother hhas' =>
        hrest other hother ((hindices _).mp hhas')).after hindices hquiet

theorem mem_byIfindex {ifindex : Int} {link : NetworkdLinkState}
    (h : (byIfindex links).lookup ifindex = some link) : link ∈ links := by
  induction links using reverseRecOn with
  | nil => cases h
  | append_singleton links last ih =>
    unfold byIfindex at h
    rw [foldl_append] at h
    rcases lookup_insert_cases h with ⟨-, rfl⟩ | hbefore
    · simp
    · exact mem_append_left _ (ih hbefore)

/-- **What networkd says is taken over and reported** if the names of its managed links are valid,
as far as these have an entry. -/
theorem sound_syncNetworkdLinks {orders : Orders} (hpos : Positive resolver.routing)
    (h : ∀ link ∈ links, link.managed = true → Has resolver.routing link.ifindex →
      ValidNames link) :
    Sound 1 resolver (syncNetworkdLinks orders resolver links).2 := by
  unfold syncNetworkdLinks
  dsimp only
  obtain ⟨dropped, hdropped, hindices, hquiet⟩ := dropUnmanaged_spec
    (orders.previous resolver.networkdLinks.keys) ⟨resolver.routing, false, [], []⟩ hpos
  rw [hdropped]
  dsimp only at hindices ⊢
  obtain ⟨taken, htaken, hindices', hquiet'⟩ := takeManaged_spec
    (((orders.incoming (byIfindex links).keys).filterMap (byIfindex links).lookup).filter
      (·.managed))
    dropped (hindices.positive hpos) (by
      intro link hlink hhas
      obtain ⟨hlisted, hmanaged⟩ := mem_filter.mp hlink
      obtain ⟨ifindex, -, hlookup⟩ := mem_filterMap.mp hlisted
      exact h link (mem_byIfindex hlookup) hmanaged ((hindices _).mp hhas))
  rw [htaken]
  refine sound_reapply ((hindices.trans hindices').positive hpos) (fun hfalse => ?_) rfl
  simp only [Bool.or_eq_false_iff] at hfalse
  obtain ⟨hflag, hrouting⟩ := hquiet' hfalse.1.1
  obtain ⟨hflag', hsame⟩ := quiet_reportAll quiet_replaceLinkServerSpecs hfalse.1.2
  obtain ⟨-, hsame'⟩ := quiet_reportAll quiet_removeEntry hflag'
  exact ⟨rfl, Same.trans (hquiet hflag).2 hrouting, SameEntries.trans _ _ _ hsame' hsame, rfl, rfl⟩

/-! ### What the kernel says -/

section
variable {links : List KernelLinkState}

/-- Synchronizing leaves entries at indices that are listed or had one. -/
theorem has_retained {ifindex : Int}
    (h : Has ((links.foldl recordOne table).retainListed links) ifindex) :
    links.any (·.ifindex == ifindex) = true ∨ Has table ifindex := by
  obtain ⟨link, hlink⟩ := Option.isSome_iff_exists.mp h
  have hrecorded := (lookup_retain.mp hlink).1
  rw [lookup_recorded] at hrecorded
  cases hlast : lastOf links ifindex with
  | none =>
    rw [hlast] at hrecorded
    dsimp only at hrecorded
    exact Or.inr (by rw [Has, hrecorded]; rfl)
  | some kernel =>
    refine Or.inl ?_
    by_contra hnot
    rw [Bool.not_eq_true, ← lastOf_eq_none_iff, hlast] at hnot
    cases hnot

theorem Same.positive {table' : RoutingTable} (h : Same table table') (hpos : Positive table) :
    Positive table' := by
  refine SameIndices.positive (fun ifindex => ?_) hpos
  unfold Has
  rw [h.1]

/-- The list of the kernel can be taken as it is: either all its indices are positive, and the names
of the managed links that are listed or have an entry are valid; or what comes before the first
index that is not is as recorded. -/
def KernelListFits (resolver : LinkResolver) (links : List KernelLinkState) : Prop :=
  ((∃ kernel ∈ links, ¬0 < kernel.ifindex) → Settled resolver.routing (beforeInvalid links)) ∧
  ((∀ kernel ∈ links, 0 < kernel.ifindex) → ∀ ifindex link,
    resolver.networkdLinks.lookup ifindex = some link → link.managed = true →
    (links.any (·.ifindex == link.ifindex) = true ∨ Has resolver.routing link.ifindex) →
    ValidNames link)

/-- **What the kernel says is taken over and reported**, and what networkd says is applied to it. -/
theorem sound_syncKernelLinks {orders : Orders} (hpos : Positive resolver.routing)
    (h : KernelListFits resolver links) :
    Sound 2 resolver (syncKernelLinks orders resolver links).2 := by
  unfold syncKernelLinks
  by_cases hvalid : ∀ kernel ∈ links, 0 < kernel.ifindex
  · obtain ⟨routeChanged, hsyncs, hchanged⟩ := syncKernelLinks_valid hvalid
    set routing := (links.foldl recordOne resolver.routing).retainListed links with hrouting
    have hpos' : Positive routing := by
      intro ifindex hhas
      rcases has_retained hhas with hlisted | hhas
      · obtain ⟨kernel, hkernel, heq⟩ := any_eq_true.mp hlisted
        rw [beq_iff_eq] at heq
        exact heq ▸ hvalid kernel hkernel
      · exact hpos ifindex hhas
    have hquiet : routeChanged = false → Same resolver.routing routing := by
      intro hfalse
      obtain ⟨hsync, hrecorded, hlisted⟩ := hchanged.mp hfalse
      exact (same_retained_iff hsync).mpr ⟨hlisted, settled_of_recorded hrecorded⟩
    rw [hsyncs]
    dsimp only
    set synchronized := finishRoutingChange _ _ with hsynchronized
    have hsound : Sound 1 resolver synchronized := by
      refine sound_reapply hpos' (fun hfalse => ?_) rfl
      simp only [Bool.or_eq_false_iff] at hfalse
      exact ⟨rfl, hquiet hfalse.1.1, quiet_retainIndices hfalse.1.2, rfl, rfl⟩
    have hindices : SameIndices routing synchronized.routing := by
      rw [hsynchronized, finishRoutingChange_routing]
      exact (reapply_spec hpos').1
    have hnetworkd : synchronized.networkdLinks = resolver.networkdLinks := by
      rw [hsynchronized, finishRoutingChange]
      split_ifs <;> rfl
    have hrest : Sound 1 synchronized
        (syncNetworkdLinks orders synchronized (values synchronized.networkdLinks)).2 := by
      refine sound_syncNetworkdLinks hsound.2 fun link hlink hmanaged hhas => ?_
      rw [hnetworkd] at hlink
      obtain ⟨ifindex, hlookup⟩ := mem_values.mp hlink
      exact h.2 hvalid ifindex link hlookup hmanaged (has_retained ((hindices _).mp hhas))
    exact ⟨hsound.1.trans hrest.1, hrest.2⟩
  · have hinvalid : ∃ kernel ∈ links, ¬0 < kernel.ifindex := by
      simpa only [not_forall, exists_prop] using hvalid
    obtain ⟨error, hsyncs⟩ := syncKernelLinks_invalid hinvalid
    have hsame := (same_recorded_iff resolver.routing (beforeInvalid links)).mpr (h.1 hinvalid)
    rw [hsyncs]
    exact (sound_kept hsame (Same.positive hsame hpos)).twice

end

/-! ### A new configuration -/

/-- **A new configuration always renews.** -/
theorem sound_reloadConfig (hpos : Positive resolver.routing) {config : LoadedConfig} :
    Sound 2 resolver (resolver.reloadConfig config) := by
  have hmoded : Sound 1 resolver (resolver.reloadProtocolModes config) :=
    sound_finish (fun _ => ⟨rfl, Mutations.Same.refl _, fun _ => rfl, rfl, rfl⟩) rfl hpos
  unfold reloadConfig
  dsimp only
  refine ⟨Or.inr ⟨?_, fun _ => rfl⟩, SameIndices.positive (reapply_spec ?_).1 ?_⟩
  · rcases hmoded.1 with hkept | ⟨⟨raised, hraised, hle, hgeneration⟩, -⟩
    · exact ⟨1, one_pos, one_le_two, congrArg (· + 1) hkept.generation⟩
    · refine ⟨raised + 1, raised.succ_pos, Nat.succ_le_succ hle, ?_⟩
      rw [UInt64.ofNat_add, ← UInt64.add_assoc, ← hgeneration]
      rfl
  · exact hmoded.2
  · exact hmoded.2

/-! ### Any sequence of operations -/

inductive Operation
  | syncKernelLinks (orders : Orders) (links : List KernelLinkState)
  | syncNetworkdLinks (orders : Orders) (links : List NetworkdLinkState)
  | setLinkDns (ifindex : Int) (servers : List SocketAddr)
  | setLinkDnsSpecs (ifindex : Int) (specs : List DnsServerSpec)
  | setLinkDomains (ifindex : Int) (domains : List Domain)
  | setLinkDefaultRoute (ifindex : Int) (defaultRoute : Option Bool)
  | setLinkLlmnr (ifindex : Int) (mode : SupportMode)
  | setLinkMulticastDns (ifindex : Int) (mode : SupportMode)
  | setLinkDnsOverTls (ifindex : Int) (mode : TlsMode)
  | setLinkDnsOverTlsOverride (ifindex : Int) (mode : Option TlsMode)
  | setLinkDnssec (ifindex : Int) (mode : ValidationMode)
  | setLinkDnssecOverride (ifindex : Int) (mode : Option ValidationMode)
  | setLinkDnssecNegativeTrustAnchors (ifindex : Int) (anchors : List Text)
  | revertLink (ifindex : Int)
  | reloadConfig (config : LoadedConfig)

/-- The resolver after an operation, whether it has failed or not. -/
def apply (resolver : LinkResolver) : Operation → LinkResolver
  | .syncKernelLinks orders links => (syncKernelLinks orders resolver links).2
  | .syncNetworkdLinks orders links => (syncNetworkdLinks orders resolver links).2
  | .setLinkDns ifindex servers => (resolver.setLinkDns ifindex servers).2
  | .setLinkDnsSpecs ifindex specs => (resolver.setLinkDnsSpecs ifindex specs).2
  | .setLinkDomains ifindex domains => (resolver.setLinkDomains ifindex domains).2
  | .setLinkDefaultRoute ifindex defaultRoute =>
    (resolver.setLinkDefaultRoute ifindex defaultRoute).2
  | .setLinkLlmnr ifindex mode => (resolver.setLinkLlmnr ifindex mode).2
  | .setLinkMulticastDns ifindex mode => (resolver.setLinkMulticastDns ifindex mode).2
  | .setLinkDnsOverTls ifindex mode => (resolver.setLinkDnsOverTls ifindex mode).2
  | .setLinkDnsOverTlsOverride ifindex mode => (resolver.setLinkDnsOverTlsOverride ifindex mode).2
  | .setLinkDnssec ifindex mode => (resolver.setLinkDnssec ifindex mode).2
  | .setLinkDnssecOverride ifindex mode => (resolver.setLinkDnssecOverride ifindex mode).2
  | .setLinkDnssecNegativeTrustAnchors ifindex anchors =>
    (resolver.setLinkDnssecNegativeTrustAnchors ifindex anchors).2
  | .revertLink ifindex => (resolver.revertLink ifindex).2
  | .reloadConfig config => resolver.reloadConfig config

/-- An operation makes no entry unreported and does not fail halfway. -/
def Fits (resolver : LinkResolver) : Operation → Prop
  | .syncKernelLinks _ links => KernelListFits resolver links
  | .syncNetworkdLinks _ links => ∀ link ∈ links, link.managed = true →
    Has resolver.routing link.ifindex → ValidNames link
  | .setLinkDns ifindex servers => Enters resolver ifindex (.dns servers)
  | .setLinkDnsSpecs ifindex specs => Enters resolver ifindex (.dns (specs.map (·.address)))
  | .setLinkDomains ifindex domains => Enters resolver ifindex (.domains domains)
  | .setLinkDefaultRoute ifindex defaultRoute =>
    Enters resolver ifindex (.defaultRoute defaultRoute)
  | .setLinkLlmnr ifindex mode => Enters resolver ifindex (.llmnr mode)
  | .setLinkMulticastDns ifindex mode => Enters resolver ifindex (.multicastDns mode)
  | .setLinkDnsOverTls ifindex mode => Enters resolver ifindex (.dnsOverTls mode) ∨
    resolver.linkDnsOverTlsOverrides.lookup ifindex ≠ some mode
  | .setLinkDnsOverTlsOverride ifindex mode =>
    Enters resolver ifindex (.dnsOverTls (mode.getD resolver.dnsOverTls)) ∨
      resolver.linkDnsOverTlsOverrides.lookup ifindex ≠ mode
  | .setLinkDnssec ifindex mode => Enters resolver ifindex (.dnssec mode) ∨
    resolver.linkDnssecOverrides.lookup ifindex ≠ some mode
  | .setLinkDnssecOverride ifindex mode =>
    Enters resolver ifindex (.dnssec (mode.getD resolver.dnssec)) ∨
      resolver.linkDnssecOverrides.lookup ifindex ≠ mode
  | .setLinkDnssecNegativeTrustAnchors ifindex anchors =>
    Enters resolver ifindex (.dnssecNegativeTrustAnchors anchors)
  | .revertLink _ => True
  | .reloadConfig _ => True

/-- **Each operation keeps or renews.** -/
theorem sound_apply (hpos : Positive resolver.routing) {operation : Operation}
    (h : Fits resolver operation) : Sound 2 resolver (apply resolver operation) := by
  cases operation with
  | syncKernelLinks orders links => exact sound_syncKernelLinks hpos h
  | syncNetworkdLinks orders links => exact (sound_syncNetworkdLinks hpos h).twice
  | setLinkDns ifindex servers =>
    refine (sound_setLinkDnsSpecs hpos ?_).twice
    have haddresses : (servers.map plainSpec).map (·.address) = servers := by
      rw [map_map]
      exact map_id servers
    rw [haddresses]
    exact h
  | setLinkDnsSpecs ifindex specs => exact (sound_setLinkDnsSpecs hpos h).twice
  | setLinkDomains | setLinkDefaultRoute | setLinkLlmnr | setLinkMulticastDns
  | setLinkDnssecNegativeTrustAnchors => exact (sound_setLink hpos h).twice
  | setLinkDnsOverTls | setLinkDnsOverTlsOverride =>
    refine Sound.twice ?_
    exact sound_setLinkDnsOverTlsOverride hpos h
  | setLinkDnssec | setLinkDnssecOverride =>
    refine Sound.twice ?_
    exact sound_setLinkDnssecOverride hpos h
  | revertLink ifindex => exact (sound_revertLink hpos ifindex).twice
  | reloadConfig config => exact sound_reloadConfig hpos

/-- If the operation changes where some query is sent, or the servers of some link, then it raises
the generation, once or twice, and the cache is empty. -/
def Invalidates (resolver : LinkResolver) (operation : Operation) : Prop :=
  ((∃ name ifindex, (apply resolver operation).scopesFor name ifindex ≠
      resolver.scopesFor name ifindex) ∨
    ∃ ifindex, (apply resolver operation).linkDnsSpecs ifindex ≠ resolver.linkDnsSpecs ifindex) →
  Renewed 2 resolver (apply resolver operation)

/-- **Changes of the routing give up the cached answers**, in every run of operations that fit. -/
theorem routing_changes_invalidate (config : LoadedConfig) (cache : Cache Unit)
    (operations : List Operation) (h : AllSteps apply Fits (.new config cache) operations) :
    AllSteps apply Invalidates (.new config cache) operations := by
  refine AllSteps.of_invariant (fun resolver => Positive resolver.routing) ?_
    (fun _ hhas => by cases hhas) h
  intro resolver operation hpos hfits
  obtain ⟨hfollows, hpos'⟩ := sound_apply hpos hfits
  refine ⟨fun hchanged => hfollows.resolve_left fun hkept => ?_, hpos'⟩
  rcases hchanged with ⟨name, ifindex, hne⟩ | ⟨ifindex, hne⟩
  · exact hne (hkept.scopesFor name ifindex)
  · exact hne (hkept.linkDnsSpecs ifindex)

def plainConfig : LoadedConfig := ⟨⟨[], [], [], [], [], []⟩, .no, .no, .yes, .yes, 0⟩

def plainCache : Cache Unit := .new 16 60 0 true

def listed : Orders := ⟨id, id⟩

/-- A server at 192.0.2.53. -/
def plainServer : SocketAddr := .v4 (.new 192 0 2 53) 53

theorem routing_changes_invalidate_servers :
    AllSteps apply Invalidates (.new plainConfig plainCache)
      [.syncKernelLinks listed [kernelAt 1], .setLinkDns 1 [plainServer]] := by
  refine routing_changes_invalidate plainConfig plainCache _ ⟨⟨?_, ?_⟩, Or.inr ?_, trivial⟩
  · rintro ⟨kernel, hkernel, hinvalid⟩
    rw [mem_singleton.mp hkernel] at hinvalid
    exact absurd (by decide) hinvalid
  · intro _ ifindex link hlookup
    cases hlookup
  · intro _
    exact cons_ne_nil _ _

/-- What networkd says of link 1: a server, and a domain that is not one. -/
def halfValid : NetworkdLinkState :=
  ⟨1, true, [plainServer], [], [⟨"~.a".toList, false⟩], none, .yes, .yes, none, none, []⟩

/-- The server is set when the domain fails, and the generation stays. -/
theorem failed_sync_reroutes :
    (run apply (.new plainConfig plainCache) [.syncKernelLinks listed [kernelAt 1]]).scopesFor
        "a".toList (some 1) = .ok [] ∧
    (run apply (.new plainConfig plainCache) [.syncKernelLinks listed [kernelAt 1],
        .syncNetworkdLinks listed [halfValid]]).scopesFor "a".toList (some 1) =
      .ok [⟨.link 1, [plainServer]⟩] ∧
    (run apply (.new plainConfig plainCache) [.syncKernelLinks listed [kernelAt 1],
        .syncNetworkdLinks listed [halfValid]]).routingGeneration =
      (run apply (.new plainConfig plainCache)
        [.syncKernelLinks listed [kernelAt 1]]).routingGeneration := by
  decide

end RustdResolved.Routing.Invalidation
