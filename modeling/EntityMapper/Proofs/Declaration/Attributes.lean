import EntityMapper.Declaration.Attribute
import EntityMapper.Proofs.Fallible

/-!
# The order and the groups of attributes

What attributes mean is told by their items alone, in whatever order they come and however they are
divided among attributes, as long as no key has two values. Which items of a field go together is
told by their keys.

* `Regrouped` — attributes with the same items
* `FieldRules` — the keys that go together on a field
* `attributes_unordered` — attributes with the same items are accepted together and mean the same,
  and those of a field are accepted by its rules
-/

namespace EntityMapper

/-! ## Items -/

/-- The items of the attributes that count on a target, in order. -/
def itemsOf (target : AttributeTarget) (groups : List AttributeGroup) : List AttributeItem :=
  (groups.filter fun g => g.name == target.name).flatMap fun g => g.items.getD []

/-- The keys of the items that count on a target, in order. -/
def keysOf (target : AttributeTarget) (groups : List AttributeGroup) : List String :=
  (itemsOf target groups).map AttributeItem.key

/-- The attributes that count on a target have parentheses, with items or without. -/
def Listed (target : AttributeTarget) (groups : List AttributeGroup) : Prop :=
  ∀ g ∈ groups, g.name = target.name → g.items.isSome = true

/-- Attributes that have the same items for a target, in any order and in any groups. -/
structure Regrouped (target : AttributeTarget) (groups groups' : List AttributeGroup) : Prop where
  listed : Listed target groups
  listed' : Listed target groups'
  perm : (itemsOf target groups).Perm (itemsOf target groups')

/-- The keys that take a value. -/
def AttributeTarget.valueKeys : AttributeTarget → List String
  | .entity => ["table", "database", "backend", "assign_keys"]
  | .field => ["max_length", "parent_column", "child_column"]

/-- No key that takes a value occurs twice. -/
def ValuesOnce (target : AttributeTarget) (groups : List AttributeGroup) : Prop :=
  ∀ key ∈ target.valueKeys, (keysOf target groups).count key ≤ 1

section Items

variable {target : AttributeTarget} {groups groups' : List AttributeGroup}

instance : Decidable (Listed target groups) :=
  inferInstanceAs (Decidable (∀ g ∈ groups, g.name = target.name → g.items.isSome = true))

instance : Decidable (ValuesOnce target groups) :=
  inferInstanceAs (Decidable (∀ key ∈ target.valueKeys, (keysOf target groups).count key ≤ 1))

instance : Decidable (Regrouped target groups groups') :=
  decidable_of_iff (Listed target groups ∧ Listed target groups' ∧
      (itemsOf target groups).Perm (itemsOf target groups'))
    ⟨fun ⟨h, h', hperm⟩ => ⟨h, h', hperm⟩, fun ⟨h, h', hperm⟩ => ⟨h, h', hperm⟩⟩

theorem Regrouped.symm (h : Regrouped target groups groups') : Regrouped target groups' groups :=
  ⟨h.listed', h.listed, h.perm.symm⟩

theorem Regrouped.valuesOnce (h : Regrouped target groups groups')
    (honce : ValuesOnce target groups) : ValuesOnce target groups' := fun key hkey =>
  (h.perm.map AttributeItem.key).count_eq key ▸ honce key hkey

end Items

/-! ## Settings -/

section Settings

variable {α β ε σ : Type} {target : AttributeTarget} {groups groups' : List AttributeGroup}

/-- The settings of a target are those of its items in order. -/
theorem settingsOf_eq (h : Listed target groups) (read : AttributeItem → Except AttributeError σ) :
    settingsOf target read groups = (itemsOf target groups).mapM read := by
  induction groups with
  | nil => rfl
  | cons g gs ih =>
    have ih := ih fun g' hg' => h g' (.tail _ hg')
    by_cases hname : g.name = target.name
    · obtain ⟨items, hitems⟩ := Option.isSome_iff_exists.mp (h g (.head _) hname)
      have hhead : itemsOf target (g :: gs) = items ++ itemsOf target gs := by
        simp [itemsOf, hname, hitems]
      rw [hhead, List.mapM_append, ← ih]
      simp [settingsOf, hname, hitems]
    · have hhead : itemsOf target (g :: gs) = itemsOf target gs := by simp [itemsOf, hname]
      rw [hhead, ← ih]
      simp [settingsOf, hname]

/-- A setting is that of an item. -/
theorem exists_of_mem_settingsOf {read : AttributeItem → Except AttributeError σ}
    {settings : List σ} (hs : settingsOf target read groups = .ok settings) {s : σ}
    (hmem : s ∈ settings) : ∃ i, read i = .ok s := by
  obtain ⟨lists, hlists, h⟩ := exists_of_bind_eq_ok hs
  obtain rfl := Except.ok.inj h
  obtain ⟨l, hl, hmem⟩ := List.mem_flatten.mp hmem
  obtain ⟨g, -, hg⟩ := exists_of_mem_mapM hlists hl
  split at hg
  · cases hg
  · obtain ⟨i, -, hi⟩ := exists_of_mem_mapM hg hmem
    exact ⟨i, hi⟩

/-- What is read of attributes with the same items is the same in another order. -/
theorem exists_perm_of_settingsOf {read : AttributeItem → Except AttributeError σ}
    (h : Regrouped target groups groups') {settings : List σ}
    (hs : settingsOf target read groups = .ok settings) :
    ∃ settings', settingsOf target read groups' = .ok settings' ∧ settings.Perm settings' := by
  rw [settingsOf_eq h.listed] at hs
  rw [settingsOf_eq h.listed']
  exact exists_perm_of_mapM h.perm hs

/-- If each setting has the key of its item, then all settings have the keys of all items. -/
theorem map_key_of_settingsOf {read : AttributeItem → Except AttributeError σ} {key : σ → String}
    (hkey : ∀ i s, read i = .ok s → key s = i.key) (h : Listed target groups) {settings : List σ}
    (hs : settingsOf target read groups = .ok settings) :
    settings.map key = keysOf target groups := by
  rw [settingsOf_eq h] at hs
  rw [keysOf]
  have hread := mapM_eq_ok_iff.mp hs
  generalize itemsOf target groups = items at hread
  clear hs
  induction hread with
  | nil => rfl
  | cons hs _ ih => exact congrArg₂ List.cons (hkey _ _ hs) ih

/-- Of at most one thing there is only one order. -/
theorem eq_of_perm_of_length_le_one {l l' : List α} (h : l.Perm l') (hl : l.length ≤ 1) :
    l = l' := by
  match l, hl with
  | [], _ => exact h.nil_eq
  | [a], _ => exact (List.perm_singleton.mp h.symm).symm

/-- The values for one key are as many as its occurrences. -/
theorem length_filterMap_eq_count {f : σ → Option β} {key : σ → String} {k : String}
    (hf : ∀ s, (f s).isSome = (key s == k)) (l : List σ) :
    (l.filterMap f).length = (l.map key).count k := by
  rw [List.length_filterMap_eq_countP, List.count, List.countP_map]
  exact List.countP_congr fun s _ => by rw [hf s]; rfl

/-- The value for a key that occurs once is the same in any order. -/
theorem filterMap_eq_of_perm {f : σ → Option β} (key : σ → String) (k : String)
    (hf : ∀ s, (f s).isSome = (key s == k)) {l l' : List σ} (h : l.Perm l')
    (hk : (l.map key).count k ≤ 1) : l.filterMap f = l'.filterMap f :=
  eq_of_perm_of_length_le_one (h.filterMap f) (length_filterMap_eq_count hf l ▸ hk)

/-- A setting that is the only one with its key is among settings as its key is. -/
theorem mem_iff_key_mem {key : σ → String} {s : σ} (hs : ∀ s', key s' = key s → s' = s)
    (l : List σ) : s ∈ l ↔ key s ∈ l.map key := by
  rw [List.mem_map]
  constructor
  · exact fun h => ⟨s, h, rfl⟩
  · rintro ⟨s', h, hkey⟩
    exact hs s' hkey ▸ h

end Settings

theorem flag_eq_ok {α : Type} {i : AttributeItem} {setting s : α} :
    i.flag setting = .ok s ↔ i.value = none ∧ s = setting := by
  unfold AttributeItem.flag
  cases i.value with
  | none => simp [eq_comm]
  | some v => simp

theorem text_eq_ok {i : AttributeItem} {s : String} :
    i.text = .ok s ↔ i.value = some (.text s) := by
  unfold AttributeItem.text
  split <;> simp [*]

theorem integer_eq_ok {i : AttributeItem} {l : String} :
    i.integer = .ok l ↔ i.value = some (.number l) ∧ (integerLiteral? l).isSome = true := by
  unfold AttributeItem.integer
  split
  next h => simp [h]
  next h => simp [h]
  next literal h =>
    simp only [h, Option.some.injEq, AttributeValue.number.injEq]
    split
    next hinteger =>
      exact ⟨fun h => ⟨Except.ok.inj h, Except.ok.inj h ▸ hinteger⟩, fun h => h.1 ▸ rfl⟩
    next hinteger => exact ⟨fun h => (nomatch h), fun h => (hinteger (h.1 ▸ h.2)).elim⟩

/-- A text that is a path has its groups closed. -/
theorem isBalanced_of_pathOfText {text : String} {path : List Lexeme}
    (h : pathOfText text = .ok path) : Lexeme.isBalanced [] path = true := by
  unfold pathOfText at h
  split at h
  · cases h
  · next ls hls =>
    obtain ⟨_, -, h⟩ := exists_of_bind_eq_ok h
    obtain rfl := Except.ok.inj h
    exact (Option.filter_eq_some_iff.mp hls).2

/-! ## On a type -/

section Entity

variable {groups groups' : List AttributeGroup}

/-- The key of a setting of a type. -/
def EntitySetting.key : EntitySetting → String
  | .table _ => "table"
  | .database _ => "database"
  | .showDatabase => "prefix_database_name"
  | .backend _ => "backend"
  | .assignKeys _ => "assign_keys"

theorem EntitySetting.key_of_ofItem {i : AttributeItem} {s : EntitySetting}
    (h : EntitySetting.ofItem i = .ok s) : s.key = i.key := by
  unfold EntitySetting.ofItem at h
  split at h
  case h_1 heq | h_2 heq | h_4 heq =>
    obtain ⟨_, -, rfl⟩ := map_eq_ok.mp h
    exact heq.symm
  case h_3 heq =>
    obtain ⟨-, rfl⟩ := flag_eq_ok.mp h
    exact heq.symm
  case h_5 heq =>
    obtain ⟨text, -, h⟩ := exists_of_bind_eq_ok h
    cases hpath : pathOfText text with
    | error fault => simp only [hpath] at h; exact nomatch h
    | ok path =>
      simp only [hpath] at h
      obtain rfl := Except.ok.inj h
      exact heq.symm
  case h_6 => exact nomatch h

/-- A path that is given in an attribute is balanced source text. -/
theorem EntitySetting.isBalanced_of_ofItem {i : AttributeItem} {path : List Lexeme}
    (h : EntitySetting.ofItem i = .ok (.assignKeys path)) : Lexeme.isBalanced [] path = true := by
  unfold EntitySetting.ofItem at h
  split at h
  case h_1 | h_2 | h_4 =>
    obtain ⟨_, -, h⟩ := map_eq_ok.mp h
    cases h
  case h_3 =>
    obtain ⟨-, h⟩ := flag_eq_ok.mp h
    cases h
  case h_5 =>
    obtain ⟨text, -, h⟩ := exists_of_bind_eq_ok h
    cases hpath : pathOfText text with
    | error fault => simp only [hpath] at h; cases h
    | ok p =>
      simp only [hpath] at h
      obtain rfl := EntitySetting.assignKeys.inj (Except.ok.inj h)
      exact isBalanced_of_pathOfText hpath
  case h_6 => cases h

/-- Settings of a type mean the same in any order if each key has one value. -/
theorem EntityAttributes.ofSettings_of_perm {settings settings' : List EntitySetting}
    (h : settings.Perm settings')
    (honce : ∀ key ∈ AttributeTarget.entity.valueKeys,
      (settings.map EntitySetting.key).count key ≤ 1) :
    ofSettings settings = ofSettings settings' := by
  let key := EntitySetting.key
  simp only [ofSettings, EntityAttributes.mk.injEq]
  refine ⟨congrArg _ (filterMap_eq_of_perm key "table" ?_ h (honce _ (by decide))),
    congrArg _ (filterMap_eq_of_perm key "database" ?_ h (honce _ (by decide))), h.contains_eq,
    congrArg _ (filterMap_eq_of_perm key "backend" ?_ h (honce _ (by decide))),
    congrArg _ (filterMap_eq_of_perm key "assign_keys" ?_ h (honce _ (by decide)))⟩
  -- each value is that of the settings with its key
  all_goals rintro (_ | _ | _ | _ | _) <;> rfl

theorem EntityAttributes.ofGroups_eq_ok {a : EntityAttributes} :
    ofGroups groups = .ok a ↔
      ∃ settings, settingsOf .entity EntitySetting.ofItem groups = .ok settings ∧
        (a.showDatabase && a.database.isNone) = false ∧ a = ofSettings settings := by
  have hgroups : ofGroups groups =
      settingsOf .entity EntitySetting.ofItem groups >>= fun settings =>
        if (ofSettings settings).showDatabase && (ofSettings settings).database.isNone then
          .error .shownWithoutDatabase
        else .ok (ofSettings settings) := rfl
  rw [hgroups]
  constructor
  · intro h
    obtain ⟨settings, hs, h⟩ := exists_of_bind_eq_ok h
    obtain ⟨hshown, h⟩ := (ite_eq_ok _).mp h
    exact ⟨settings, hs, h ▸ hshown, h⟩
  · rintro ⟨settings, hs, hshown, rfl⟩
    rw [hs]
    exact (ite_eq_ok _).mpr ⟨hshown, rfl⟩

/-- What the attributes of a type mean, attributes with the same items mean as well. -/
theorem EntityAttributes.ofGroups_regrouped (h : Regrouped .entity groups groups')
    (honce : ValuesOnce .entity groups) {a : EntityAttributes} (ha : ofGroups groups = .ok a) :
    ofGroups groups' = .ok a := by
  obtain ⟨settings, hs, hshown, rfl⟩ := ofGroups_eq_ok.mp ha
  obtain ⟨settings', hs', hperm⟩ := exists_perm_of_settingsOf h hs
  have hkeys := map_key_of_settingsOf (fun _ _ => EntitySetting.key_of_ofItem) h.listed hs
  have hmeaning := ofSettings_of_perm hperm (hkeys ▸ honce)
  exact ofGroups_eq_ok.mpr ⟨settings', hs', hshown, hmeaning⟩

end Entity

/-! ## On a field -/

/-- The keys of a field that name its role. -/
def roleKeys : List String := ["one_to_many", "one_to_one", "skip"]

/-- The keys of a field that take no value. -/
def flagKeys : List String :=
  ["primary_key", "identity", "computed", "ignore", "required"] ++ roleKeys

/-- The keys of a field that only a column can have. -/
def columnKeys : List String := ["primary_key", "identity", "computed", "required", "max_length"]

/-- A known key of a field with a value of its form. -/
inductive AttributeItem.IsFieldItem : AttributeItem → Prop
  | flag {key : String} (h : key ∈ flagKeys) : IsFieldItem ⟨key, none⟩
  | length {literal : String} (h : (integerLiteral? literal).isSome = true) :
      IsFieldItem ⟨"max_length", some (.number literal)⟩
  | joined {key : String} (name : String) (h : key = "parent_column" ∨ key = "child_column") :
      IsFieldItem ⟨key, some (.text name)⟩

/-- Which keys go together on a field. -/
structure FieldRules (keys : List String) : Prop where
  /-- one role is named at most, and once -/
  oneRole : keys.countP (· ∈ roleKeys) ≤ 1
  stored : ¬ ("identity" ∈ keys ∧ "computed" ∈ keys)
  joined : "parent_column" ∈ keys ∨ "child_column" ∈ keys → ∃ k ∈ roleKeys, k ∈ keys
  column : "one_to_many" ∈ keys ∨ "one_to_one" ∈ keys → ∀ k ∈ columnKeys, k ∉ keys

section Field

variable {groups groups' : List AttributeGroup}

/-- The key of a setting of a field. A field is a column where no role is named. -/
def FieldSetting.key : FieldSetting → String
  | .primaryKey => "primary_key"
  | .identity => "identity"
  | .computed => "computed"
  | .ignore => "ignore"
  | .required => "required"
  | .maxLength _ => "max_length"
  | .role .oneToMany => "one_to_many"
  | .role .oneToOne => "one_to_one"
  | .role .skip => "skip"
  | .role .scalar => ""
  | .parentColumn _ => "parent_column"
  | .childColumn _ => "child_column"

/-- An item of a field is a setting, and has its key. -/
theorem FieldSetting.ofItem_eq_ok {i : AttributeItem} {s : FieldSetting}
    (h : FieldSetting.ofItem i = .ok s) : i.IsFieldItem ∧ s.key = i.key ∧ s ≠ .role .scalar := by
  obtain ⟨key, value⟩ := i
  unfold FieldSetting.ofItem at h
  split at h
  case h_1 heq | h_2 heq | h_3 heq | h_4 heq | h_5 heq | h_7 heq | h_8 heq | h_9 heq =>
    obtain ⟨hvalue, rfl⟩ := flag_eq_ok.mp h
    obtain rfl : key = _ := heq
    obtain rfl : value = none := hvalue
    exact ⟨.flag (by decide), rfl, by simp⟩
  case h_6 heq =>
    obtain ⟨l, hl, rfl⟩ := map_eq_ok.mp h
    obtain ⟨hvalue, hinteger⟩ := integer_eq_ok.mp hl
    obtain rfl : key = _ := heq
    obtain rfl : value = _ := hvalue
    exact ⟨.length hinteger, rfl, by simp⟩
  case h_10 heq | h_11 heq =>
    obtain ⟨l, hl, rfl⟩ := map_eq_ok.mp h
    obtain rfl : key = _ := heq
    obtain rfl : value = _ := text_eq_ok.mp hl
    exact ⟨.joined l (by decide), rfl, by simp⟩
  case h_12 => exact nomatch h

/-- Every item of a field is a setting. -/
theorem FieldSetting.exists_ofItem {i : AttributeItem} (h : i.IsFieldItem) :
    ∃ s, FieldSetting.ofItem i = .ok s := by
  cases h with
  | flag h =>
    simp only [flagKeys, roleKeys, List.mem_append, List.mem_cons, List.not_mem_nil, or_false] at h
    rcases h with (rfl | rfl | rfl | rfl | rfl) | rfl | rfl | rfl <;> exact ⟨_, rfl⟩
  | length h => exact ⟨_, map_eq_ok.mpr ⟨_, integer_eq_ok.mpr ⟨rfl, h⟩, rfl⟩⟩
  | joined name h => rcases h with rfl | rfl <;> exact ⟨_, rfl⟩

theorem isFieldItem_iff {i : AttributeItem} :
    i.IsFieldItem ↔ ∃ s, FieldSetting.ofItem i = .ok s :=
  ⟨FieldSetting.exists_ofItem, fun ⟨_, h⟩ => (FieldSetting.ofItem_eq_ok h).1⟩

/-- Settings of a field mean the same in any order if no key has two values and there is one role at
most. -/
theorem FieldAttributes.ofSettings_of_perm {settings settings' : List FieldSetting}
    (h : settings.Perm settings')
    (honce : ∀ key ∈ AttributeTarget.field.valueKeys, (settings.map FieldSetting.key).count key ≤ 1)
    (hrole : (FieldSetting.roles settings).length ≤ 1) :
    ofSettings settings = ofSettings settings' := by
  let key := FieldSetting.key
  have hroles : FieldSetting.roles settings = FieldSetting.roles settings' :=
    eq_of_perm_of_length_le_one (h.filterMap _) hrole
  simp only [ofSettings, FieldAttributes.mk.injEq]
  refine ⟨by rw [hroles], h.contains_eq, h.contains_eq, h.contains_eq, h.contains_eq, h.contains_eq,
    congrArg _ (filterMap_eq_of_perm key "max_length" ?_ h (honce _ (by decide))),
    congrArg _ (filterMap_eq_of_perm key "parent_column" ?_ h (honce _ (by decide))),
    congrArg _ (filterMap_eq_of_perm key "child_column" ?_ h (honce _ (by decide)))⟩
  all_goals rintro (_ | _ | _ | _ | _ | _ | ⟨_ | _ | _ | _⟩ | _ | _) <;> rfl

theorem FieldAttributes.ofGroups_eq_ok {a : FieldAttributes} :
    ofGroups groups = .ok a ↔
      ∃ settings, settingsOf .field FieldSetting.ofItem groups = .ok settings ∧
        (FieldSetting.roles settings).length ≤ 1 ∧ a.conflict? = none ∧ a = ofSettings settings := by
  unfold ofGroups
  constructor
  · intro h
    obtain ⟨settings, hs, h⟩ := exists_of_bind_eq_ok h
    dsimp only at h
    split at h
    next => cases h
    next hone =>
      split at h
      next => cases h
      next hnone =>
        obtain rfl := Except.ok.inj h
        exact ⟨settings, hs, Nat.le_of_not_lt hone, hnone, rfl⟩
  · rintro ⟨settings, hs, hone, hnone, rfl⟩
    rw [hs]
    show (if _ then _ else _) = _
    rw [if_neg (Nat.not_lt.mpr hone), hnone]
    rfl

/-- What the attributes of a field mean, attributes with the same items mean as well. -/
theorem FieldAttributes.ofGroups_regrouped (h : Regrouped .field groups groups')
    (honce : ValuesOnce .field groups) {a : FieldAttributes} (ha : ofGroups groups = .ok a) :
    ofGroups groups' = .ok a := by
  obtain ⟨settings, hs, hone, hnone, rfl⟩ := ofGroups_eq_ok.mp ha
  obtain ⟨settings', hs', hperm⟩ := exists_perm_of_settingsOf h hs
  have hkeys := map_key_of_settingsOf (fun _ _ h => (FieldSetting.ofItem_eq_ok h).2.1) h.listed hs
  have hmeaning := ofSettings_of_perm hperm (hkeys ▸ honce) hone
  have hone' : (FieldSetting.roles settings').length ≤ 1 := (hperm.filterMap _).length_eq ▸ hone
  exact ofGroups_eq_ok.mpr ⟨settings', hs', hone', hnone, hmeaning⟩

/-! ## Rules -/

theorem ite_some_eq_none {α : Type} {p : Prop} [Decidable p] {a : α} {x : Option α} :
    (if p then some a else x) = none ↔ ¬ p ∧ x = none := by
  split <;> simp [*]

theorem FieldAttributes.conflict?_eq_none_iff {a : FieldAttributes} :
    a.conflict? = none ↔ ¬ (a.identity = true ∧ a.computed = true) ∧
      ¬ (a.role = .scalar ∧ a.namesJoinColumn = true) ∧
      ¬ (a.role.isAssociation = true ∧ a.isColumnLike = true) := by
  rw [conflict?, ite_some_eq_none, ite_some_eq_none, ite_some_eq_none, Bool.and_eq_true,
    Bool.and_eq_true, Bool.and_eq_true, decide_eq_true_iff]
  exact ⟨fun h => ⟨h.1, h.2.1, h.2.2.1⟩, fun h => ⟨h.1, h.2.1, h.2.2, rfl⟩⟩

variable {settings : List FieldSetting}

theorem mem_roles {r : FieldRole} : r ∈ FieldSetting.roles settings ↔ .role r ∈ settings := by
  rw [FieldSetting.roles, List.mem_filterMap]
  constructor
  · rintro ⟨s, hs, hr⟩
    cases s <;> simp_all
  · exact fun h => ⟨_, h, rfl⟩

/-- Settings without values are told apart by their keys. -/
theorem FieldSetting.eq_of_key {s s' : FieldSetting} (hflag : s.key ∈ flagKeys)
    (h : s'.key = s.key) : s' = s := by
  rcases s with _ | _ | _ | _ | _ | _ | ⟨_ | _ | _ | _⟩ | _ | _ <;>
    rcases s' with _ | _ | _ | _ | _ | _ | ⟨_ | _ | _ | _⟩ | _ | _ <;>
    simp_all [FieldSetting.key, flagKeys, roleKeys]

variable {keys : List String}

/-- A setting without a value is there if its key is. -/
theorem contains_setting (hkeys : settings.map FieldSetting.key = keys) (s : FieldSetting)
    (hflag : s.key ∈ flagKeys) : settings.contains s = true ↔ s.key ∈ keys := by
  rw [List.contains_iff_mem, mem_iff_key_mem fun _ => FieldSetting.eq_of_key hflag, hkeys]

/-- A value is there if its key is. -/
theorem isSome_value (hkeys : settings.map FieldSetting.key = keys) {β : Type}
    {f : FieldSetting → Option β} (k : String) (hf : ∀ s, (f s).isSome = (s.key == k)) :
    (settings.filterMap f).getLast?.isSome = true ↔ k ∈ keys := by
  rw [List.getLast?_isSome, ← List.length_pos_iff, length_filterMap_eq_count hf, hkeys,
    List.count_pos_iff]

/-- A role is named if its key is there. -/
theorem mem_roles_iff (hkeys : settings.map FieldSetting.key = keys) (r : FieldRole)
    (hflag : (FieldSetting.role r).key ∈ flagKeys) :
    r ∈ FieldSetting.roles settings ↔ (FieldSetting.role r).key ∈ keys := by
  rw [mem_roles, ← List.contains_iff_mem, contains_setting hkeys _ hflag]

/-- The roles that are named are as many as the keys that name them. -/
theorem length_roles (hkeys : settings.map FieldSetting.key = keys)
    (hnamed : .role .scalar ∉ settings) :
    (FieldSetting.roles settings).length = keys.countP (· ∈ roleKeys) := by
  rw [FieldSetting.roles, List.length_filterMap_eq_countP, ← hkeys, List.countP_map]
  refine List.countP_congr fun s hs => ?_
  rcases s with _ | _ | _ | _ | _ | _ | ⟨_ | _ | _ | _⟩ | _ | _
  case role.scalar => exact absurd hs hnamed
  all_goals simp [FieldSetting.key, roleKeys]

namespace FieldAttributes

theorem namesJoinColumn_iff (hkeys : settings.map FieldSetting.key = keys) :
    (ofSettings settings).namesJoinColumn = true ↔
      "parent_column" ∈ keys ∨ "child_column" ∈ keys := by
  rw [namesJoinColumn, Bool.or_eq_true]
  refine or_congr (isSome_value hkeys _ ?_) (isSome_value hkeys _ ?_)
  all_goals rintro (_ | _ | _ | _ | _ | _ | ⟨_ | _ | _ | _⟩ | _ | _) <;> rfl

theorem isColumnLike_iff (hkeys : settings.map FieldSetting.key = keys) :
    (ofSettings settings).isColumnLike = true ↔ ∃ k ∈ columnKeys, k ∈ keys := by
  have hlength : (ofSettings settings).maxLength.isSome = true ↔ "max_length" ∈ keys := by
    refine isSome_value hkeys _ ?_
    rintro (_ | _ | _ | _ | _ | _ | ⟨_ | _ | _ | _⟩ | _ | _) <;> rfl
  have hprimary := contains_setting hkeys .primaryKey (by decide)
  have hidentity := contains_setting hkeys .identity (by decide)
  have hcomputed := contains_setting hkeys .computed (by decide)
  have hrequired := contains_setting hkeys .required (by decide)
  simp only [isColumnLike, Bool.or_eq_true, hlength]
  simp only [ofSettings, hprimary, hidentity, hcomputed, hrequired, FieldSetting.key]
  simp [columnKeys, or_assoc]

theorem isAssociation_iff (hkeys : settings.map FieldSetting.key = keys)
    (hone : (FieldSetting.roles settings).length ≤ 1) :
    (ofSettings settings).role.isAssociation = true ↔
      "one_to_many" ∈ keys ∨ "one_to_one" ∈ keys := by
  have hmany : _ ↔ "one_to_many" ∈ keys := mem_roles_iff hkeys .oneToMany (by decide)
  have hsingle : _ ↔ "one_to_one" ∈ keys := mem_roles_iff hkeys .oneToOne (by decide)
  rw [← hmany, ← hsingle, ofSettings]
  match hroles : FieldSetting.roles settings, hone with
  | [], _ => simp [FieldRole.isAssociation]
  | [r], _ => cases r <;> simp [FieldRole.isAssociation]

theorem role_eq_scalar_iff (hkeys : settings.map FieldSetting.key = keys)
    (hnamed : .role .scalar ∉ settings) :
    (ofSettings settings).role = .scalar ↔ ¬ ∃ k ∈ roleKeys, k ∈ keys := by
  have hlength := length_roles hkeys hnamed
  rw [ofSettings]
  cases hroles : FieldSetting.roles settings with
  | nil =>
    rw [hroles] at hlength
    refine ⟨fun _ ⟨k, hrole, hk⟩ => ?_, fun _ => rfl⟩
    exact List.countP_eq_zero.mp hlength.symm k hk (decide_eq_true hrole)
  | cons r rest =>
    have hr : .role r ∈ settings := mem_roles.mp (hroles ▸ .head _)
    have hpos : 0 < keys.countP (· ∈ roleKeys) := by
      rw [← hlength, hroles]
      exact Nat.succ_pos _
    obtain ⟨k, hk, hrole⟩ := List.countP_pos_iff.mp hpos
    constructor
    · intro hscalar
      obtain rfl : r = .scalar := hscalar
      exact absurd hr hnamed
    · exact fun h => absurd ⟨k, of_decide_eq_true hrole, hk⟩ h

/-- **Settings of a field go together if their keys do.** -/
theorem conflict_iff (hkeys : settings.map FieldSetting.key = keys)
    (hnamed : .role .scalar ∉ settings) :
    (FieldSetting.roles settings).length ≤ 1 ∧ (ofSettings settings).conflict? = none ↔
      FieldRules keys := by
  have hidentity : (ofSettings settings).identity = true ↔ "identity" ∈ keys :=
    contains_setting hkeys .identity (by decide)
  have hcomputed : (ofSettings settings).computed = true ↔ "computed" ∈ keys :=
    contains_setting hkeys .computed (by decide)
  have hlength := length_roles hkeys hnamed
  rw [conflict?_eq_none_iff, hidentity, hcomputed, role_eq_scalar_iff hkeys hnamed,
    namesJoinColumn_iff hkeys, isColumnLike_iff hkeys]
  constructor
  · rintro ⟨hone, hstored, hjoined, hcolumn⟩
    refine ⟨hlength ▸ hone, hstored, fun h => ?_, fun h k hk hmem => ?_⟩
    · by_contra hnone
      exact hjoined ⟨hnone, h⟩
    · exact hcolumn ⟨(isAssociation_iff hkeys hone).mpr h, k, hk, hmem⟩
  · intro h
    have hone : (FieldSetting.roles settings).length ≤ 1 := hlength ▸ h.oneRole
    refine ⟨hone, h.stored, fun ⟨hnone, hjoin⟩ => hnone (h.joined hjoin), ?_⟩
    rintro ⟨hassociation, k, hk, hmem⟩
    exact h.column ((isAssociation_iff hkeys hone).mp hassociation) k hk hmem

end FieldAttributes

/-- **The attributes of a field are accepted if each item is one of a field and their keys go
together.** -/
theorem FieldAttributes.ofGroups_isOk_iff (h : Listed .field groups) :
    (∃ a, ofGroups groups = .ok a) ↔
      (∀ i ∈ itemsOf .field groups, i.IsFieldItem) ∧ FieldRules (keysOf .field groups) := by
  have hread : (∃ settings, settingsOf .field FieldSetting.ofItem groups = .ok settings) ↔
      ∀ i ∈ itemsOf .field groups, i.IsFieldItem := by
    rw [settingsOf_eq h, mapM_isOk_iff]
    exact forall₂_congr fun i _ => isFieldItem_iff.symm
  -- the rules are about the settings that are read
  have hrules (settings : List FieldSetting)
      (hs : settingsOf .field FieldSetting.ofItem groups = .ok settings) :
      (FieldSetting.roles settings).length ≤ 1 ∧ (ofSettings settings).conflict? = none ↔
        FieldRules (keysOf .field groups) := by
    have hkeys := map_key_of_settingsOf (fun _ _ h => (FieldSetting.ofItem_eq_ok h).2.1) h hs
    refine conflict_iff hkeys fun hmem => ?_
    rw [settingsOf_eq h] at hs
    obtain ⟨i, -, hi⟩ := exists_of_mem_mapM hs hmem
    exact (FieldSetting.ofItem_eq_ok hi).2.2 rfl
  rw [← hread]
  constructor
  · rintro ⟨a, ha⟩
    obtain ⟨settings, hs, hone, hnone, rfl⟩ := ofGroups_eq_ok.mp ha
    exact ⟨⟨settings, hs⟩, (hrules settings hs).mp ⟨hone, hnone⟩⟩
  · rintro ⟨⟨settings, hs⟩, h⟩
    obtain ⟨hone, hnone⟩ := (hrules settings hs).mpr h
    exact ⟨_, ofGroups_eq_ok.mpr ⟨settings, hs, hone, hnone, rfl⟩⟩

end Field

/-- **Neither the order nor the groups of attributes count**: where no key has two values,
attributes with the same items are accepted together and mean the same. Those of a field are accepted
just when its items are known, have values of their forms, and go together by the rules. -/
theorem attributes_unordered (groups groups' : List AttributeGroup) :
    (Regrouped .entity groups groups' → ValuesOnce .entity groups → ∀ a,
      EntityAttributes.ofGroups groups = .ok a ↔ EntityAttributes.ofGroups groups' = .ok a) ∧
    (Regrouped .field groups groups' → ValuesOnce .field groups → ∀ a,
      FieldAttributes.ofGroups groups = .ok a ↔ FieldAttributes.ofGroups groups' = .ok a) ∧
    (Listed .field groups → ((∃ a, FieldAttributes.ofGroups groups = .ok a) ↔
      (∀ i ∈ itemsOf .field groups, i.IsFieldItem) ∧ FieldRules (keysOf .field groups))) := by
  refine ⟨fun h honce a => ?_, fun h honce a => ?_, FieldAttributes.ofGroups_isOk_iff⟩
  · exact ⟨EntityAttributes.ofGroups_regrouped h honce,
      EntityAttributes.ofGroups_regrouped h.symm (h.valuesOnce honce)⟩
  · exact ⟨FieldAttributes.ofGroups_regrouped h honce,
      FieldAttributes.ofGroups_regrouped h.symm (h.valuesOnce honce)⟩

namespace Library

/-- The attributes of books, in one group. -/
def bookAttributes : List AttributeGroup :=
  [⟨"entity", some [⟨"prefix_database_name", none⟩, ⟨"table", some (.text "books")⟩,
    ⟨"database", some (.text "main")⟩]⟩]

/-- The same in three groups, one of which is empty. -/
def bookAttributes' : List AttributeGroup :=
  [⟨"entity", some [⟨"database", some (.text "main")⟩]⟩, ⟨"entity", some []⟩,
    ⟨"entity", some [⟨"table", some (.text "books")⟩, ⟨"prefix_database_name", none⟩]⟩]

/-- The attributes of the books of an author, beside one that is not about the mapping. -/
def booksAttributes : List AttributeGroup :=
  [⟨"field", some [⟨"child_column", some (.text "author_id")⟩]⟩, ⟨"doc", none⟩,
    ⟨"field", some [⟨"one_to_many", none⟩]⟩]

/-- The same in one group. -/
def booksAttributes' : List AttributeGroup :=
  [⟨"field", some [⟨"one_to_many", none⟩, ⟨"child_column", some (.text "author_id")⟩]⟩]

/-- Those of books that every author has to have. -/
def requiredBooks : List AttributeGroup :=
  ⟨"field", some [⟨"required", none⟩]⟩ :: booksAttributes

end Library

/-- The name of the database is shown before the database is named, and the column that joins is
named before the role. An association that is required is refused. -/
theorem attributes_unordered_library :
    Regrouped .entity Library.bookAttributes Library.bookAttributes' ∧
      ValuesOnce .entity Library.bookAttributes ∧
      EntityAttributes.ofGroups Library.bookAttributes' =
        .ok { table := some "books", database := some "main", showDatabase := true } ∧
      Regrouped .field Library.booksAttributes Library.booksAttributes' ∧
      ValuesOnce .field Library.booksAttributes ∧
      FieldAttributes.ofGroups Library.booksAttributes' =
        .ok { role := .oneToMany, childColumn := some "author_id" } ∧
      Listed .field Library.requiredBooks ∧
      ¬ ∃ a, FieldAttributes.ofGroups Library.requiredBooks = .ok a := by
  have hentity : Regrouped .entity Library.bookAttributes Library.bookAttributes' := by
    decide +kernel
  have hfield : Regrouped .field Library.booksAttributes Library.booksAttributes' := by
    decide +kernel
  have honce : ValuesOnce .entity Library.bookAttributes := by decide +kernel
  have honce' : ValuesOnce .field Library.booksAttributes := by decide +kernel
  have hlisted : Listed .field Library.requiredBooks := by decide +kernel
  refine ⟨hentity, honce, ?_, hfield, honce', ?_, hlisted, ?_⟩
  · exact ((attributes_unordered _ _).1 hentity honce _).mp rfl
  · exact ((attributes_unordered _ _).2.1 hfield honce' _).mp rfl
  · intro h
    have hrules := (((attributes_unordered _ []).2.2 hlisted).mp h).2
    exact hrules.column (by decide +kernel) "required" (by decide +kernel) (by decide +kernel)

end EntityMapper
