/-
Module: ChipEight.Proofs.Arrangements
Purpose: What a command line gives, apart from how it is spelled. It gives a list of items: the program,
  settings with their values, and flags. The items of a record can stand in any order, and together
  they give the record, whatever that order is.
Main exports: Item, Given.insert, collect, Arranges, Arranges.of_perm, Arranges.collect_eq, Once,
  Once.accepts, Given.items, Given.arranges_items
-/
import ChipEight.Proofs.WrittenValues
import Mathlib.Data.List.Induction

namespace ChipEight.CommandLine

/-! ### Items -/

/-- One thing that a command line gives. -/
inductive Item where
  | program (path : String)
  | setting (setting : Setting) (value : setting.Value)
  | flag (flag : Flag)

namespace Item

/-- The path of the program, if the item gives it. -/
def program? : Item → Option String
  | .program path => some path
  | _ => none

/-- The value of a setting, if the item gives it. -/
def value? (s : Setting) : Item → Option s.Value
  | .setting s' value => if same : s' = s then some (same ▸ value) else none
  | _ => none

/-- The item raises the flag. -/
def raises (f : Flag) : Item → Bool
  | .flag f' => f' = f
  | _ => false

end Item

namespace Given

/-- The value of a setting that can be given once. -/
def value? (g : Given) : (s : Setting) → Option s.Value
  | .font => g.font?
  | .mode => g.mode?
  | .ips => g.ips?
  | .cycles => g.cycles?
  | .hold => none
  | .seed => g.seed?
  | .ppm => g.ppm?
  | .background => g.background?
  | .foreground => g.foreground?

theorem has_eq (g : Given) (s : Setting) : g.has s = (g.value? s).isSome := by
  cases s <;> rfl

/-- The flag is up. -/
def raised (g : Given) : Flag → Bool
  | .turbo => g.turbo
  | .disassemble => g.disassemble
  | .debug => g.debug

/-- What is given when a flag is up. -/
def withFlag (g : Given) : Flag → Given
  | .turbo => { g with turbo := true }
  | .disassemble => { g with disassemble := true }
  | .debug => { g with debug := true }

theorem raise_of_down {g : Given} {f : Flag} (down : g.raised f = false) :
    g.raise f = .ok (g.withFlag f) := by
  cases f <;> exact if_neg (Bool.eq_false_iff.mp down)

theorem takeProgram_of_plain {text : String} (g : Given) (plain : Plain text) :
    g.takeProgram text = .ok { g with rom? := some text } := by
  rw [takeProgram, readPath_of_plain plain]
  rfl

/-- A value that is new is taken. -/
theorem take_of_writes {g : Given} {s : Setting} {value : s.Value} {text : String}
    (fresh : g.value? s = none) (writes : s.Writes value text) :
    g.take s text = .ok (g.put s value) := by
  rw [take, has_eq, fresh, ← g.read_of_writes writes]
  rfl

/-- What is given after one more item. -/
def insert (g : Given) : Item → Given
  | .program path => { g with rom? := some path }
  | .setting s value => g.put s value
  | .flag f => g.withFlag f

/-- The item gives nothing that has been given and may be given only once. -/
def Accepts (g : Given) : Item → Prop
  | .program _ => g.rom? = none
  | .setting s _ => g.value? s = none
  | .flag f => g.raised f = false

theorem rom?_insert (g : Given) (item : Item) :
    (g.insert item).rom? = item.program?.or g.rom? := by
  cases item with
  | program path => rfl
  | setting s value => cases s <;> rfl
  | flag f => cases f <;> rfl

theorem value?_insert (g : Given) (item : Item) {s : Setting} (single : s ≠ .hold) :
    (g.insert item).value? s = (item.value? s).or (g.value? s) := by
  cases item with
  | program path => cases s <;> rfl
  | setting s' value =>
      by_cases same : s' = s
      · subst same
        rw [Item.value?, dif_pos rfl]
        cases s' with
        | hold => exact absurd rfl single
        | _ => rfl
      · rw [Item.value?, dif_neg same]
        cases s' <;> cases s <;> first | rfl | exact absurd rfl same
  | flag f => cases f <;> cases s <;> rfl

theorem hold_insert (g : Given) (item : Item) :
    (g.insert item).hold = g.hold ++ (item.value? .hold).getD [] := by
  cases item with
  | program path => exact (List.append_nil _).symm
  | setting s value =>
      cases s with
      | hold => rfl
      | _ => exact (List.append_nil _).symm
  | flag f => cases f <;> exact (List.append_nil _).symm

theorem raised_insert (g : Given) (item : Item) (f : Flag) :
    (g.insert item).raised f = (item.raises f || g.raised f) := by
  cases item with
  | program path => cases f <;> rfl
  | setting s value => cases s <;> cases f <;> rfl
  | flag f' => cases f' <;> cases f <;> rfl

/-- What is given is known from its parts. -/
theorem ext_parts {g g' : Given} (program : g.rom? = g'.rom?)
    (settings : ∀ s ≠ .hold, g.value? s = g'.value? s) (hold : g.hold = g'.hold)
    (flags : ∀ f, g.raised f = g'.raised f) : g = g' := by
  have font : g.font? = g'.font? := settings .font nofun
  have mode : g.mode? = g'.mode? := settings .mode nofun
  have ips : g.ips? = g'.ips? := settings .ips nofun
  have cycles : g.cycles? = g'.cycles? := settings .cycles nofun
  have seed : g.seed? = g'.seed? := settings .seed nofun
  have ppm : g.ppm? = g'.ppm? := settings .ppm nofun
  have background : g.background? = g'.background? := settings .background nofun
  have foreground : g.foreground? = g'.foreground? := settings .foreground nofun
  have turbo : g.turbo = g'.turbo := flags .turbo
  have disassemble : g.disassemble = g'.disassemble := flags .disassemble
  have debug : g.debug = g'.debug := flags .debug
  cases g
  cases g'
  rw [mk.injEq]
  exact ⟨program, font, mode, ips, cycles, turbo, hold, seed, disassemble, ppm, background,
    foreground, debug⟩

end Given

/-! ### Arrangements -/

/-- What all items together give. -/
def collect (items : List Item) : Given := items.foldl Given.insert {}

theorem collect_concat (items : List Item) (item : Item) :
    collect (items ++ [item]) = (collect items).insert item :=
  List.foldl_concat _ _ _ _

theorem getLast?_toList {α : Type} (o : Option α) : o.toList.getLast? = o := by
  cases o <;> rfl

theorem filterMap_concat {α : Type} (f : Item → Option α) (items : List Item) (item : Item) :
    (items ++ [item]).filterMap f = items.filterMap f ++ (f item).toList := by
  rw [List.filterMap_append, List.filterMap_cons, List.filterMap_nil]
  cases f item <;> rfl

theorem rom?_collect (items : List Item) :
    (collect items).rom? = (items.filterMap Item.program?).getLast? := by
  induction items using List.reverseRecOn with
  | nil => rfl
  | append_singleton items item inductionHypothesis =>
      rw [collect_concat, Given.rom?_insert, inductionHypothesis, filterMap_concat,
        List.getLast?_append, getLast?_toList]

theorem value?_collect (items : List Item) {s : Setting} (single : s ≠ .hold) :
    (collect items).value? s = (items.filterMap (Item.value? s)).getLast? := by
  induction items using List.reverseRecOn with
  | nil => cases s <;> rfl
  | append_singleton items item inductionHypothesis =>
      rw [collect_concat, Given.value?_insert _ _ single, inductionHypothesis, filterMap_concat,
        List.getLast?_append, getLast?_toList]

theorem hold_collect (items : List Item) :
    (collect items).hold = (items.filterMap (Item.value? .hold)).flatten := by
  induction items using List.reverseRecOn with
  | nil => rfl
  | append_singleton items item inductionHypothesis =>
      rw [collect_concat, Given.hold_insert, inductionHypothesis, filterMap_concat,
        List.flatten_append]
      cases item.value? .hold with
      | none => rfl
      | some keys => exact congrArg _ (List.append_nil keys).symm

theorem raised_collect (items : List Item) (f : Flag) :
    (collect items).raised f = items.any (Item.raises f) := by
  induction items using List.reverseRecOn with
  | nil => cases f <;> rfl
  | append_singleton items item inductionHypothesis =>
      rw [collect_concat, Given.raised_insert, inductionHypothesis, List.any_append, Bool.or_comm]
      simp

/-- The items give the record, in any order: the program, every setting and every flag of the record
    stand among them once, and what the record does not have stands nowhere. Only the keys that are
    held may be spread over several items, whose order among each other is theirs. -/
structure Arranges (items : List Item) (g : Given) : Prop where
  program : items.filterMap Item.program? = g.rom?.toList
  settings : ∀ s ≠ .hold, items.filterMap (Item.value? s) = (g.value? s).toList
  hold : (items.filterMap (Item.value? .hold)).flatten = g.hold
  flags : ∀ f, items.countP (Item.raises f) = (g.raised f).toNat

theorem any_eq_of_countP {α : Type} {p : α → Bool} {items : List α} {b : Bool}
    (count : items.countP p = b.toNat) : items.any p = b := by
  cases b with
  | false =>
      have none : ∀ item ∈ items, ¬p item = true := List.countP_eq_zero.mp count
      rw [List.any_eq_false]
      exact none
  | true =>
      rw [List.any_eq_true, ← List.countP_pos_iff, count]
      exact Nat.one_pos

/-- What the items of a record give is the record. -/
theorem Arranges.collect_eq {items : List Item} {g : Given} (arranges : Arranges items g) :
    collect items = g := by
  apply Given.ext_parts
  case program => rw [rom?_collect, arranges.program, getLast?_toList]
  case settings =>
    intro s single
    rw [value?_collect items single, arranges.settings s single, getLast?_toList]
  case hold => rw [hold_collect, arranges.hold]
  case flags =>
    intro f
    rw [raised_collect]
    exact any_eq_of_countP (arranges.flags f)

/-- The items give nothing twice that may be given only once. -/
structure Once (items : List Item) : Prop where
  program : (items.filterMap Item.program?).length ≤ 1
  settings : ∀ s ≠ .hold, (items.filterMap (Item.value? s)).length ≤ 1
  flags : ∀ f, items.countP (Item.raises f) ≤ 1

theorem Arranges.once {items : List Item} {g : Given} (arranges : Arranges items g) : Once items := by
  constructor
  case program =>
    rw [arranges.program]
    exact Option.length_toList_le
  case settings =>
    intro s single
    rw [arranges.settings s single]
    exact Option.length_toList_le
  case flags =>
    intro f
    rw [arranges.flags f]
    exact Bool.toNat_le _

namespace Once

variable {items : List Item} {item : Item}

theorem of_concat (once : Once (items ++ [item])) : Once items := by
  have shorter {α : Type} (view : Item → Option α) :
      (items.filterMap view).length ≤ ((items ++ [item]).filterMap view).length := by
    rw [List.filterMap_append, List.length_append]
    exact Nat.le_add_right _ _
  constructor
  case program => exact Nat.le_trans (shorter _) once.program
  case settings =>
    intro s single
    exact Nat.le_trans (shorter _) (once.settings s single)
  case flags =>
    intro f
    apply Nat.le_trans _ (once.flags f)
    rw [List.countP_append]
    exact Nat.le_add_right _ _

/-- Among such items each one is new to what those before it give. -/
theorem accepts (once : Once (items ++ [item])) : (collect items).Accepts item := by
  have unpreceded {α : Type} {earlier : List α} {last : α}
      (short : (earlier ++ [last]).length ≤ 1) : earlier = [] := by
    rw [List.length_append, List.length_singleton] at short
    exact List.eq_nil_of_length_eq_zero (by omega)
  cases item with
  | program path =>
      have short := once.program
      rw [filterMap_concat] at short
      rw [Given.Accepts, rom?_collect, unpreceded short]
      rfl
  | setting s value =>
      by_cases single : s = .hold
      · subst single
        rfl
      · have short := once.settings s single
        rw [filterMap_concat, Item.value?, dif_pos rfl] at short
        rw [Given.Accepts, value?_collect items single, unpreceded short]
        rfl
  | flag f =>
      have count := once.flags f
      rw [List.countP_append, List.countP_singleton, Item.raises, decide_eq_true rfl,
        if_pos rfl] at count
      have lowered : items.countP (Item.raises f) = false.toNat := Nat.le_zero.mp (by omega)
      rw [Given.Accepts, raised_collect]
      exact any_eq_of_countP lowered

end Once

/-! ### Every record can be arranged -/

theorem eq_toList_of_perm {α : Type} {o : Option α} {values : List α}
    (perm : values.Perm o.toList) : values = o.toList := by
  cases o with
  | none => exact perm.eq_nil
  | some value => exact List.perm_singleton.mp perm

/-- Any other order of the items arranges the same record, as long as the keys stay in theirs. -/
theorem Arranges.of_perm {items items' : List Item} {g : Given} (arranges : Arranges items g)
    (perm : items'.Perm items)
    (keys : items'.filterMap (Item.value? .hold) = items.filterMap (Item.value? .hold)) :
    Arranges items' g := by
  constructor
  case program =>
    have values := perm.filterMap Item.program?
    rw [arranges.program] at values
    exact eq_toList_of_perm values
  case settings =>
    intro s single
    have values := perm.filterMap (Item.value? s)
    rw [arranges.settings s single] at values
    exact eq_toList_of_perm values
  case hold => rw [keys, arranges.hold]
  case flags =>
    intro f
    rw [perm.countP_eq, arranges.flags f]

/-- All settings. -/
def Setting.all : List Setting :=
  [.font, .mode, .ips, .cycles, .hold, .seed, .ppm, .background, .foreground]

/-- All flags. -/
def Flag.all : List Flag := [.turbo, .disassemble, .debug]

namespace Given

/-- The item of the program. -/
def programItems (g : Given) : List Item := g.rom?.toList.map .program

/-- The items of the settings that can be given once. -/
def settingItems (g : Given) : List Item :=
  Setting.all.flatMap fun s => (g.value? s).toList.map (.setting s)

/-- The item of all keys together. -/
def keyItems (g : Given) : List Item := if g.hold = [] then [] else [.setting .hold g.hold]

/-- The items of the flags. -/
def flagItems (g : Given) : List Item := (Flag.all.filter g.raised).map .flag

/-- The items of a record. -/
def items (g : Given) : List Item := g.programItems ++ g.settingItems ++ g.keyItems ++ g.flagItems

variable {g : Given} {item : Item}

theorem mem_programItems :
    item ∈ g.programItems ↔ ∃ path, g.rom? = some path ∧ item = .program path := by
  simp [programItems, eq_comm]

theorem mem_settingItems :
    item ∈ g.settingItems ↔ ∃ s value, g.value? s = some value ∧ item = .setting s value := by
  have listed (s : Setting) : s ∈ Setting.all := by
    cases s <;> decide
  simp [settingItems, listed, eq_comm]

theorem mem_keyItems : item ∈ g.keyItems ↔ g.hold ≠ [] ∧ item = .setting .hold g.hold := by
  rw [keyItems]
  by_cases unheld : g.hold = [] <;> simp [unheld]

theorem mem_flagItems : item ∈ g.flagItems ↔ ∃ f, g.raised f = true ∧ item = .flag f := by
  have listed (f : Flag) : f ∈ Flag.all := by
    cases f <;> decide
  simp only [flagItems, List.mem_map, List.mem_filter, listed, true_and, eq_comm]

section Views

/-! #### Items that a view does not see -/

variable {α : Type} {view : Item → Option α}

theorem filterMap_programItems (blind : ∀ path, view (.program path) = none) :
    g.programItems.filterMap view = [] := by
  rw [List.filterMap_eq_nil_iff]
  intro item member
  obtain ⟨path, -, rfl⟩ := mem_programItems.mp member
  exact blind path

theorem filterMap_settingItems (blind : ∀ s value, view (.setting s value) = none) :
    g.settingItems.filterMap view = [] := by
  rw [List.filterMap_eq_nil_iff]
  intro item member
  obtain ⟨s, value, -, rfl⟩ := mem_settingItems.mp member
  exact blind s value

theorem filterMap_keyItems (blind : view (.setting .hold g.hold) = none) :
    g.keyItems.filterMap view = [] := by
  rw [List.filterMap_eq_nil_iff]
  intro item member
  obtain ⟨-, rfl⟩ := mem_keyItems.mp member
  exact blind

theorem filterMap_flagItems (blind : ∀ f, view (.flag f) = none) :
    g.flagItems.filterMap view = [] := by
  rw [List.filterMap_eq_nil_iff]
  intro item member
  obtain ⟨f, -, rfl⟩ := mem_flagItems.mp member
  exact blind f

end Views

theorem filterMap_value?_setting {s s' : Setting} (given? : Option s'.Value) :
    (given?.toList.map (Item.setting s')).filterMap (Item.value? s) =
      if same : s' = s then (same ▸ given?).toList else [] := by
  by_cases same : s' = s
  · subst same
    cases given? <;> simp [Item.value?]
  · cases given? <;> simp [Item.value?, same]

theorem filterMap_value?_settingItems (g : Given) (s : Setting) :
    g.settingItems.filterMap (Item.value? s) = (g.value? s).toList := by
  rw [settingItems, List.filterMap_flatMap]
  simp only [filterMap_value?_setting]
  cases s <;> simp [Setting.all]

/-- All keys that are held stand in one item, if there are any. -/
theorem filterMap_value?_hold_items (g : Given) :
    g.items.filterMap (Item.value? .hold) = (if g.hold = [] then none else some g.hold).toList := by
  have unlisted : g.settingItems.filterMap (Item.value? .hold) = [] :=
    filterMap_value?_settingItems g .hold
  rw [items, List.filterMap_append, List.filterMap_append, List.filterMap_append,
    filterMap_programItems fun _ => rfl, unlisted, filterMap_flagItems fun _ => rfl,
    List.nil_append, List.nil_append, List.append_nil, keyItems]
  by_cases unheld : g.hold = []
  · rw [if_pos unheld, if_pos unheld]
    rfl
  · rw [if_neg unheld, if_neg unheld]
    rfl

/-- Every record has an arrangement. -/
theorem arranges_items (g : Given) : Arranges g.items g := by
  constructor
  case program =>
    have programs : g.programItems.filterMap Item.program? = g.rom?.toList := by
      rw [programItems]
      cases g.rom? <;> rfl
    rw [items, List.filterMap_append, List.filterMap_append, List.filterMap_append, programs,
      filterMap_settingItems fun _ _ => rfl, filterMap_keyItems rfl, filterMap_flagItems fun _ => rfl,
      List.append_nil, List.append_nil, List.append_nil]
  case settings =>
    intro s single
    rw [items, List.filterMap_append, List.filterMap_append, List.filterMap_append,
      filterMap_programItems fun _ => rfl, filterMap_value?_settingItems,
      filterMap_keyItems (dif_neg single.symm), filterMap_flagItems fun _ => rfl, List.nil_append,
      List.append_nil, List.append_nil]
  case hold =>
    rw [filterMap_value?_hold_items]
    by_cases unheld : g.hold = []
    · rw [if_pos unheld, unheld]
      rfl
    · rw [if_neg unheld]
      exact List.append_nil _
  case flags =>
    intro f
    have programs : g.programItems.countP (Item.raises f) = 0 := by
      rw [List.countP_eq_zero]
      intro item member
      obtain ⟨path, -, rfl⟩ := mem_programItems.mp member
      exact Bool.false_ne_true
    have settings : g.settingItems.countP (Item.raises f) = 0 := by
      rw [List.countP_eq_zero]
      intro item member
      obtain ⟨s, value, -, rfl⟩ := mem_settingItems.mp member
      exact Bool.false_ne_true
    have keys : g.keyItems.countP (Item.raises f) = 0 := by
      rw [List.countP_eq_zero]
      intro item member
      obtain ⟨-, rfl⟩ := mem_keyItems.mp member
      exact Bool.false_ne_true
    have flags : g.flagItems.countP (Item.raises f) = (g.raised f).toNat := by
      have chosen : g.flagItems.countP (Item.raises f) = if g.raised f = true then 1 else 0 := by
        rw [flagItems, List.countP_map, List.countP_filter]
        cases f <;> simp [Flag.all, Item.raises, List.countP_cons]
      rw [chosen]
      cases g.raised f <;> rfl
    rw [items, List.countP_append, List.countP_append, List.countP_append, programs, settings, keys,
      flags, Nat.zero_add]

/-- Every order of its items arranges a record. -/
theorem arranges_of_perm {items : List Item} (perm : items.Perm g.items) : Arranges items g := by
  apply g.arranges_items.of_perm perm
  have keys := perm.filterMap (Item.value? .hold)
  rw [filterMap_value?_hold_items] at keys ⊢
  exact eq_toList_of_perm keys

end Given

end ChipEight.CommandLine
