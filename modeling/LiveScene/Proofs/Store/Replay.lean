import Mathlib.Data.Prod.Lex
import LiveScene.Proofs.Store.KeyOrder
import LiveScene.Proofs.Store.Rebuild

/-!
# What a replay is

A replay lists what there is to tell of a store: the objects of some kinds (`Store.ListsObjects`)
and the marks of keys with objects (`Store.ListsMarks`), each in strictly ascending order of keys.
Such a list is determined by its members, so there is one replay only (`isReplay_iff`), and two
stores with the same objects and the same marks where there are objects have the same one
(`SameContents.replay_eq`). It can be made by sorting the contents of the store in whatever order
they come (`replay_eq_mergeSort`).
-/

namespace LiveScene.Store

variable {s t : Store} {cs : List Command}

/-- The stored objects of some kinds, in strictly ascending order of keys. -/
structure ListsObjects (s : Store) (kinds : List Kind) (os : List SceneObject) : Prop where
  mem : ∀ o, o ∈ os ↔ s.get? o.key = some o ∧ o.kind ∈ kinds
  sorted : os.Pairwise fun o o' => KeyBefore o.key o'.key

/-- The keys that may be dragged and have an object, in strictly ascending order. -/
structure ListsMarks (s : Store) (keys : List String) : Prop where
  mem : ∀ key, key ∈ keys ↔ key ∈ s.draggable ∧ s.contains key
  sorted : keys.Pairwise KeyBefore

/-- The commands create all textures, then all solids, lines and meshes, then all elements of the
screen, and at last let the marked keys be dragged that have an object, each in strictly ascending
order of keys. -/
def IsReplay (s : Store) (cs : List Command) : Prop :=
  ∃ textures solids elements keys, s.ListsObjects [.texture] textures ∧
    s.ListsObjects [.box, .sphere, .capsule, .line, .mesh] solids ∧
    s.ListsObjects [.text, .button, .slider, .plot] elements ∧ s.ListsMarks keys ∧
    cs = (textures ++ solids ++ elements).map SceneObject.createCommand ++
      keys.map Command.enableMouse

/-! ## Lists are determined by their members -/

theorem ListsObjects.eq {kinds : List Kind} {os os' : List SceneObject}
    (h : s.ListsObjects kinds os) (h' : s.ListsObjects kinds os') : os = os' :=
  eq_of_keyBefore h.sorted h'.sorted fun o => (h.mem o).trans (h'.mem o).symm

theorem ListsMarks.eq {keys keys' : List String} (h : s.ListsMarks keys) (h' : s.ListsMarks keys') :
    keys = keys' :=
  eq_of_keyBefore (k := id) h.sorted h'.sorted fun key => (h.mem key).trans (h'.mem key).symm

theorem IsReplay.eq {ds : List Command} (h : s.IsReplay cs) (h' : s.IsReplay ds) : cs = ds := by
  obtain ⟨textures, solids, elements, keys, htextures, hsolids, helements, hkeys, rfl⟩ := h
  obtain ⟨textures', solids', elements', keys', htextures', hsolids', helements', hkeys', rfl⟩ := h'
  rw [htextures.eq htextures', hsolids.eq hsolids', helements.eq helements', hkeys.eq hkeys']

/-! ## The replay of a store -/

theorem keyBefore_values (h : s.Keyed) :
    (s.objects.toList.map (·.2)).Pairwise fun o o' => KeyBefore o.key o'.key := by
  refine List.pairwise_map.2 (s.objects.ordered_keys_toList.imp_of_mem fun {p q} hp hq hpq => ?_)
  have own {p : String × SceneObject} (hp : p ∈ s.objects.toList) : p.2.key = p.1 :=
    h p.1 p.2 (Std.ExtTreeMap.mem_toList_iff_getElem?_eq_some.1 hp)
  rw [own hp, own hq]
  exact keyBefore_iff_compare.2 hpq

theorem listsObjects_group (h : s.Keyed) {g : ReplayGroup} {kinds : List Kind}
    (hkinds : ∀ k : Kind, k.replayGroup = g ↔ k ∈ kinds) :
    s.ListsObjects kinds (s.group g) where
  mem o := by
    rw [mem_group, hkinds]
    refine and_congr_left fun _ => ⟨?_, fun ho => ⟨o.key, ho⟩⟩
    rintro ⟨key, ho⟩
    rwa [h key o ho]
  sorted := (keyBefore_values h).filter _

theorem listsMarks_draggableKeys (s : Store) : s.ListsMarks s.draggableKeys where
  mem key := by simp [draggableKeys]
  sorted := s.keyBefore_toList_draggable.filter _

theorem isReplay_replay (h : s.Keyed) : s.IsReplay s.replay :=
  ⟨s.group .images, s.group .solids, s.group .elements, s.draggableKeys,
    listsObjects_group h fun k => by cases k <;> decide,
    listsObjects_group h fun k => by cases k <;> decide,
    listsObjects_group h fun k => by cases k <;> decide, s.listsMarks_draggableKeys, rfl⟩

/-- A store under whose keys their own objects stand has one replay and no other. -/
theorem isReplay_iff (h : s.Keyed) : s.IsReplay cs ↔ cs = s.replay := by
  refine ⟨fun hcs => hcs.eq (isReplay_replay h), ?_⟩
  rintro rfl
  exact isReplay_replay h

/-- No command stands in a replay twice. -/
theorem nodup_replay (h : s.Keyed) : s.replay.Nodup := by
  have apart {kinds kinds' : List Kind} {os os' : List SceneObject} (hos : s.ListsObjects kinds os)
      (hos' : s.ListsObjects kinds' os') (hkinds : ∀ k ∈ kinds, k ∉ kinds') : os.Disjoint os' :=
    fun o ho ho' => hkinds _ ((hos.mem o).1 ho).2 ((hos'.mem o).1 ho').2
  obtain ⟨textures, solids, elements, keys, htextures, hsolids, helements, hkeys, heq⟩ :=
    isReplay_replay h
  have hspace : (textures ++ solids).Nodup :=
    (nodup_of_keyBefore htextures.sorted).append (nodup_of_keyBefore hsolids.sorted)
      (apart htextures hsolids (by decide))
  have hobjects : (textures ++ solids ++ elements).Nodup := by
    refine hspace.append (nodup_of_keyBefore helements.sorted) ?_
    refine List.disjoint_append_left.2 ⟨?_, ?_⟩
    · exact apart htextures helements (by decide)
    · exact apart hsolids helements (by decide)
  have hkeys' : keys.Nodup := nodup_of_keyBefore (k := id) hkeys.sorted
  rw [heq]
  refine (hobjects.map fun o o' ho => Command.create.inj ho).append
    (hkeys'.map fun k k' hk => Command.enableMouse.inj hk) fun c hc hc' => ?_
  obtain ⟨o, -, rfl⟩ := List.mem_map.1 hc
  obtain ⟨key, -, hkey⟩ := List.mem_map.1 hc'
  cases hkey

/-- Whatever stands before the creation of a texture creates a texture as well. -/
theorem textures_first (s : Store) :
    s.replay.Pairwise fun c d => d.opcode = .create .texture → c.opcode = .create .texture := by
  have himages : ∀ c ∈ (s.group .images).map SceneObject.createCommand,
      c.opcode = .create .texture := by
    intro c hc
    obtain ⟨o, ho, rfl⟩ := List.mem_map.1 hc
    have hgroup := (mem_group.1 ho).2
    cases o <;> first | rfl | cases hgroup
  have hothers : ∀ c ∈ (s.group .solids ++ s.group .elements).map SceneObject.createCommand ++
      s.draggableKeys.map .enableMouse, c.opcode ≠ .create .texture := by
    intro c hc
    rcases List.mem_append.1 hc with hc | hc
    · obtain ⟨o, ho, rfl⟩ := List.mem_map.1 hc
      rcases List.mem_append.1 ho with ho | ho <;>
      · have hgroup := (mem_group.1 ho).2
        cases o <;> simp_all [SceneObject.kind, Kind.replayGroup, SceneObject.createCommand,
          Command.opcode]
    · obtain ⟨key, -, rfl⟩ := List.mem_map.1 hc
      simp [Command.opcode]
  rw [replay, List.append_assoc, List.map_append, List.append_assoc, List.pairwise_append]
  refine ⟨List.pairwise_of_forall_mem_list fun c hc _ _ _ => himages c hc,
    List.pairwise_of_forall_mem_list fun c _ d hd hdt => absurd hdt (hothers d hd),
    fun c hc _ _ _ => himages c hc⟩

/-! ## Stores with the same contents -/

/-- The two stores have the same objects, and the same marks where there are objects. -/
structure SameContents (s t : Store) : Prop where
  objects : ∀ key, s.get? key = t.get? key
  marks : ∀ key, s.contains key → (key ∈ s.draggable ↔ key ∈ t.draggable)

theorem SameContents.isReplay (h : s.SameContents t) (hcs : s.IsReplay cs) : t.IsReplay cs := by
  obtain ⟨textures, solids, elements, keys, htextures, hsolids, helements, hkeys, rfl⟩ := hcs
  have same {kinds : List Kind} {os : List SceneObject} (hos : s.ListsObjects kinds os) :
      t.ListsObjects kinds os := ⟨fun o => by rw [hos.mem, h.objects], hos.sorted⟩
  refine ⟨_, _, _, keys, same htextures, same hsolids, same helements,
    ⟨fun key => ?_, hkeys.sorted⟩, rfl⟩
  rw [hkeys.mem, contains, contains, ← h.objects]
  exact and_congr_left fun hkey => h.marks key hkey

theorem SameContents.replay_eq (h : s.SameContents t) (hs : s.Keyed) (ht : t.Keyed) :
    s.replay = t.replay :=
  (isReplay_iff ht).1 (h.isReplay (isReplay_replay hs))

end LiveScene.Store

/-! ## Replays by sorting -/

namespace LiveScene

/-- The place of a group in a replay. -/
def ReplayGroup.rank : ReplayGroup → Nat
  | .images => 0
  | .solids => 1
  | .elements => 2

/-- Kinds are listed in the order of their groups. -/
theorem Kind.rank_replayGroup_le {k k' : Kind} (h : k.le k') :
    k.replayGroup.rank ≤ k'.replayGroup.rank := by
  revert h
  cases k <;> cases k' <;> decide

/-- What the objects of a replay are sorted by: their group, and in one group their key. -/
def SceneObject.replayPlace (o : SceneObject) : Nat ×ₗ String :=
  toLex (o.kind.replayGroup.rank, o.key)

namespace Store

variable {s : Store}

theorem mem_groups {o : SceneObject} :
    o ∈ s.group .images ++ s.group .solids ++ s.group .elements ↔
      o ∈ s.objects.toList.map (·.2) := by
  simp only [group, List.mem_append, List.mem_filter, ← and_or_left, beq_iff_eq,
    and_iff_left_iff_imp]
  intro _
  cases o.kind <;> decide

/-- The groups, one after the other, are in strictly ascending order of places. -/
theorem replayPlace_groups (h : s.Keyed) :
    (s.group .images ++ s.group .solids ++ s.group .elements).Pairwise
      fun o o' => o.replayPlace < o'.replayPlace := by
  have hwithin (g : ReplayGroup) :
      (s.group g).Pairwise fun o o' => o.replayPlace < o'.replayPlace := by
    refine ((keyBefore_values h).filter _).imp_of_mem fun {o o'} ho ho' hkey => ?_
    have hrank := (mem_group.1 ho).2.trans (mem_group.1 ho').2.symm
    exact Prod.Lex.lt_iff.2 (Or.inr ⟨congrArg ReplayGroup.rank hrank, keyBefore_iff_lt.1 hkey⟩)
  have hbetween {g g' : ReplayGroup} (hg : g.rank < g'.rank) :
      ∀ o ∈ s.group g, ∀ o' ∈ s.group g', o.replayPlace < o'.replayPlace := by
    intro o ho o' ho'
    refine Prod.Lex.lt_iff.2 (Or.inl ?_)
    simpa [SceneObject.replayPlace, (mem_group.1 ho).2, (mem_group.1 ho').2] using hg
  refine List.pairwise_append.2 ⟨List.pairwise_append.2 ⟨hwithin _, hwithin _,
    hbetween (by decide)⟩, hwithin _, fun o ho o' ho' => ?_⟩
  rcases List.mem_append.1 ho with ho | ho
  · exact hbetween (by decide) o ho o' ho'
  · exact hbetween (by decide) o ho o' ho'

/-- A replay is what sorting the objects by group and key and the marked keys gives, in whatever
order the store has them. -/
theorem replay_eq_mergeSort (h : s.Keyed) {os : List SceneObject} {keys : List String}
    (hos : os.Perm (s.objects.toList.map (·.2))) (hkeys : keys.Perm s.draggable.toList) :
    s.replay =
      (os.mergeSort fun o o' => o.replayPlace ≤ o'.replayPlace).map SceneObject.createCommand ++
        ((keys.filter s.contains).mergeSort (· ≤ ·)).map Command.enableMouse := by
  have hplaces := replayPlace_groups h
  have hgroups : os.Perm (s.group .images ++ s.group .solids ++ s.group .elements) := by
    refine hos.trans ((List.perm_ext_iff_of_nodup (nodup_of_keyBefore (keyBefore_values h)) ?_).2
      fun o => mem_groups.symm)
    exact hplaces.imp fun hlt hsame => by simp [hsame] at hlt
  have hmarks : (keys.filter s.contains).mergeSort (· ≤ ·) = s.draggableKeys :=
    mergeSort_eq_of_perm (f := id) (s.listsMarks_draggableKeys.sorted.imp keyBefore_iff_lt.1)
      (hkeys.filter _)
  rw [replay, mergeSort_eq_of_perm hplaces hgroups, hmarks]

end Store

end LiveScene
