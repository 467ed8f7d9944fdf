import RecordSchema.CommandLine.Parse
import RecordSchema.Proofs.Traversal

/-!
# What a parser keeps

Whatever the texts are, and in whatever order options and values come, a parser changes settings in
three ways only: it sets the target of an argument to a value that this argument can have, it reads
a default, and it takes over the settings of a command.  So what each of these preserves, from the
defaults on, holds of the settings of every command line that is accepted
(`Parser.Keeps.parseWith`).  The induction is on the tokens that are left; what it needs to know
about them is that their options are options of the parser, and that an option for one text is
handed one.
-/

namespace RecordSchema

/-! ### Settings by name -/

section Entries

variable {α : Type} {name : String} {value : α} {entries : List (String × α)}

lemma mem_putEntry {entry : String × α} (h : entry ∈ putEntry name value entries) :
    entry = (name, value) ∨ entry ∈ entries := by
  induction entries with
  | nil => exact Or.inl (List.mem_singleton.mp h)
  | cons other entries ih =>
    rw [putEntry] at h
    split at h
    · exact (List.mem_cons.mp h).imp_right (List.mem_cons_of_mem _)
    · rcases List.mem_cons.mp h with rfl | h
      · exact Or.inr (List.mem_cons_self ..)
      · exact (ih h).imp_right (List.mem_cons_of_mem _)

lemma lookup_cons_ite (other : String) : ((name, value) :: entries).lookup other =
    if other = name then some value else entries.lookup other := by
  by_cases h : other = name
  · rw [if_pos h, h, List.lookup_cons_self]
  · rw [if_neg h, List.lookup_cons, beq_false_of_ne h]

lemma lookup_putEntry (other : String) : (putEntry name value entries).lookup other =
    if other = name then some value else entries.lookup other := by
  induction entries with
  | nil => exact lookup_cons_ite other
  | cons entry entries ih =>
    obtain ⟨first, old⟩ := entry
    rw [putEntry, lookup_cons_ite]
    by_cases hfirst : first = name
    · rw [if_pos hfirst, lookup_cons_ite, hfirst]
      split_ifs <;> rfl
    · rw [if_neg hfirst, lookup_cons_ite, ih]
      split_ifs with h h'
      · exact absurd (h.symm.trans h') hfirst
      · rfl
      · rfl
      · rfl

end Entries

namespace Settings

variable {settings others : Settings} {name other : String} {value : Setting}

lemma get?_set (settings : Settings) (name other : String) (value : Setting) :
    (settings.set name value).get? other =
      if other = name then some value else settings.get? other :=
  lookup_putEntry other

lemma mem_of_get? (h : settings.get? name = some value) : (name, value) ∈ settings := by
  obtain ⟨front, rest, rfl, -⟩ := List.lookup_eq_some_iff.mp h
  exact List.mem_append_right _ (List.mem_cons_self ..)

lemma isSome_get?_set (h : (settings.get? other).isSome) :
    ((settings.set name value).get? other).isSome := by
  rw [get?_set]
  split_ifs
  · rfl
  · exact h

lemma mem_update {entry : String × Setting} (h : entry ∈ settings.update others) :
    entry ∈ settings ∨ entry ∈ others := by
  unfold update at h
  induction others generalizing settings with
  | nil => exact Or.inl h
  | cons first others ih =>
    rcases ih h with h | h
    · rcases mem_putEntry h with rfl | h
      · exact Or.inr (List.mem_cons_self ..)
      · exact Or.inl h
    · exact Or.inr (List.mem_cons_of_mem _ h)

lemma isSome_get?_update (others : Settings) (h : (settings.get? other).isSome) :
    ((settings.update others).get? other).isSome := by
  unfold update
  induction others generalizing settings with
  | nil => exact h
  | cons first others ih => exact ih (isSome_get?_set h)

lemma isSome_get?_update_right (h : (others.get? other).isSome) :
    ((settings.update others).get? other).isSome := by
  induction others generalizing settings with
  | nil => cases h
  | cons first others ih =>
    obtain ⟨name, value⟩ := first
    show (((settings.set name value).update others).get? other).isSome
    by_cases hname : other = name
    · refine isSome_get?_update others ?_
      rw [get?_set, if_pos hname]
      rfl
    · refine ih ?_
      rw [get?, lookup_cons_ite, if_neg hname] at h
      exact h

/-- What an update with other names leaves as it was. -/
lemma get?_update_of_forall_ne (h : ∀ entry ∈ others, entry.1 ≠ name) :
    (settings.update others).get? name = settings.get? name := by
  unfold update
  induction others generalizing settings with
  | nil => rfl
  | cons first others ih =>
    obtain ⟨hfirst, hothers⟩ := List.forall_mem_cons.mp h
    rw [List.foldl_cons, ih hothers, get?_set, if_neg hfirst.symm]

end Settings

/-! ### The values of an argument -/

namespace Argument

/-- The values that an argument can set: its default, and what it makes of texts.  An option that
takes one text gets just one. -/
inductive Sets (a : Argument) : Setting → Prop
  | default : a.Sets a.default
  | switch (h : a.role = .switch) : a.Sets (.boolean true)
  | value {type : ValueType} {arity : Arity} {texts : List String} {value : Setting}
      (h : a.role = .value type arity)
      (hone : a.isOption = true → arity = .one → texts.length = 1)
      (hvalue : a.valueOf type arity texts = .ok value) : a.Sets value
  | readDefault {type : ValueType} {arity : Arity} {text : String} {value : Setting}
      (h : a.role = .value type arity) (hdefault : a.default = .text text)
      (hvalue : a.convert type text = .ok value) : a.Sets value
  | command {summaries : List (String × String)} {name : String}
      (h : a.role = .command summaries) : a.Sets (.text name)

/-- Texts that may be handed to an argument: an option for one text gets one. -/
def Fits (a : Argument) (texts : List String) : Prop :=
  a.isOption = true → Portion.arityOfRole a.role = .one → texts.length = 1

end Argument

/-! ### What a parser keeps -/

namespace Parser

variable {p : Parser} {run : String → List String → Except Exit Parsed}
  {IsKept : Settings → Prop} {s s' : Parse} {a : Argument} {texts : List String}

/-- A property of settings that the defaults have, and that each way of changing settings keeps. -/
structure Keeps (p : Parser) (run : String → List String → Except Exit Parsed)
    (IsKept : Settings → Prop) : Prop where
  defaults : IsKept p.defaults
  set : ∀ {settings : Settings} {a : Argument} {value : Setting}, a ∈ p.arguments →
    (∀ summaries, a.role ≠ .command summaries) → a.Sets value → IsKept settings →
      IsKept (settings.set a.target value)
  command : ∀ {settings : Settings} {a : Argument} {summaries : List (String × String)}
    {name : String} {texts : List String} {parsed : Parsed}, a ∈ p.arguments →
      a.role = .command summaries → run name texts = .ok parsed → IsKept settings →
        IsKept ((settings.set a.target (.text name)).update parsed.settings)

/-- A state in which the settings have a property, and the arguments that wait for their place are
arguments of the parser. -/
structure IsSound (p : Parser) (IsKept : Settings → Prop) (s : Parse) : Prop where
  settings : IsKept s.settings
  waiting : ∀ a ∈ s.waiting, a ∈ p.arguments ∧ a.isOption = false

lemma blame_eq_ok {α : Type} {r : Except Misuse α} {x : α} (h : p.blame r = .ok x) : r = .ok x := by
  cases r with
  | ok y => exact congrArg Except.ok (Except.ok.inj h)
  | error cause => cases h

/-- What each step of a fold keeps, the whole fold keeps. -/
lemma foldlM_keeps {ε α β : Type} {step : β → α → Except ε β} {P : β → Prop} {xs : List α}
    (hstep : ∀ s x s', x ∈ xs → P s → step s x = .ok s' → P s') {s s' : β}
    (hs : P s) (h : xs.foldlM step s = .ok s') : P s' := by
  induction xs generalizing s with
  | nil => exact Except.ok.inj h ▸ hs
  | cons x xs ih =>
    obtain ⟨next, hnext, h⟩ := bind_eq_ok_iff.mp h
    exact ih (fun s x s' hx => hstep s x s' (List.mem_cons_of_mem _ hx))
      (hstep _ x _ (List.mem_cons_self ..) hs hnext) h

lemma Keeps.perform (hk : p.Keeps run IsKept) (ha : a ∈ p.arguments) (hfits : a.Fits texts)
    (hs : p.IsSound IsKept s) (h : p.perform run s a texts = .ok s') : p.IsSound IsKept s' := by
  unfold Parser.perform at h
  dsimp only at h
  cases hrole : a.role with
  | help =>
    rw [hrole] at h
    cases h
  | switch =>
    rw [hrole] at h
    cases h
    exact ⟨hk.set ha (by simp [hrole]) (.switch hrole) hs.settings, hs.waiting⟩
  | value type arity =>
    rw [hrole] at h
    obtain ⟨value, hvalue, h⟩ := bind_eq_ok_iff.mp h
    cases h
    refine ⟨hk.set ha (by simp [hrole]) (.value hrole ?_ (blame_eq_ok hvalue)) hs.settings,
      hs.waiting⟩
    intro hoption hone
    rw [if_pos hoption]
    exact hfits hoption (by rw [hrole, ← hone]; rfl)
  | command summaries =>
    rw [hrole] at h
    obtain ⟨-, -, h⟩ := bind_eq_ok_iff.mp h
    obtain ⟨parsed, hparsed, h⟩ := bind_eq_ok_iff.mp h
    cases h
    exact ⟨hk.command ha hrole hparsed hs.settings, hs.waiting⟩

lemma Keeps.takePlaces {tokens : List Token} {count : Nat} (hk : p.Keeps run IsKept)
    (hs : p.IsSound IsKept s) (h : p.takePlaces run s tokens = .ok (s', count)) :
    p.IsSound IsKept s' := by
  unfold Parser.takePlaces at h
  dsimp only at h
  refine foldlM_keeps (P := fun state => p.IsSound IsKept state.1) ?_ ?_ h
  · rintro ⟨before, start⟩ ⟨a, count⟩ ⟨after, stop⟩ hserved hbefore h
    obtain ⟨ha, hplace⟩ := hs.waiting a (List.of_mem_zip hserved).1
    obtain ⟨performed, hperformed, h⟩ := bind_eq_ok_iff.mp h
    cases h
    refine hk.perform ha ?_ hbefore hperformed
    intro hoption
    rw [hplace] at hoption
    cases hoption
  · exact ⟨hs.settings, fun a ha => hs.waiting a (List.mem_of_mem_drop ha)⟩

/-! ### What options take -/

/-- Arguments of a parser with texts that may be handed to them. -/
def CanPerform (p : Parser) (actions : List (Argument × List String)) : Prop :=
  ∀ action ∈ actions, action.1 ∈ p.arguments ∧ action.1.Fits action.2

/-- An option for one text takes one, or nothing fits it. -/
lemma countOf_one {marks : List Mark} {count : Nat} (hone : Portion.arityOfRole a.role = .one)
    (h : countOf a marks = .ok count) : count = 1 ∧ marks ≠ [] := by
  unfold countOf Portion.ofOption? Portion.optionPieces at h
  rw [hone] at h
  cases marks with
  | nil => cases h
  | cons mark marks =>
    cases mark with
    | value => exact ⟨(Except.ok.inj h).symm, List.cons_ne_nil _ _⟩
    | option => cases h
    | separator => cases h

lemma canPerform_takeFollowing {following : List Token} {taken : Taken} (ha : a ∈ p.arguments)
    (h : takeFollowing a following = .ok taken) : p.CanPerform taken.actions := by
  obtain ⟨count, hcount, h⟩ := bind_eq_ok_iff.mp h
  cases h
  refine List.forall_mem_singleton.mpr ⟨ha, fun _ hone => ?_⟩
  obtain ⟨rfl, hne⟩ := countOf_one hone hcount
  rw [List.length_map, List.length_take]
  have hpos : 0 < following.length := List.length_pos_of_ne_nil fun h => hne (by rw [h]; rfl)
  omega

/-- A spelling of the parser is that of one of its options. -/
lemma mem_arguments_of_mem_spellings {spelling : String} (h : (spelling, a) ∈ p.spellings) :
    a ∈ p.arguments := by
  obtain ⟨b, hb, hspelling⟩ := List.mem_flatMap.mp h
  obtain ⟨other, -, heq⟩ := List.mem_map.mp hspelling
  cases heq
  exact List.mem_of_mem_filter hb

lemma mem_arguments_of_option? {spelling : String} (h : p.option? spelling = some a) :
    a ∈ p.arguments := by
  obtain ⟨front, rest, hspellings, -⟩ := List.lookup_eq_some_iff.mp h
  have hspelling : (spelling, a) ∈ p.spellings := by
    rw [hspellings]
    exact List.mem_append_right _ (List.mem_cons_self ..)
  exact mem_arguments_of_mem_spellings hspelling

lemma canPerform_takeAttached {following : List Token} {spelling : String} {isMarked : Bool}
    {text : List Char} {taken : Taken} (ha : a ∈ p.arguments)
    (h : p.takeAttached following a spelling isMarked text = .ok taken) :
    p.CanPerform taken.actions := by
  induction hlength : text.length using Nat.strongRecOn
    generalizing text a spelling isMarked taken with
  | _ length ih =>
  rw [takeAttached] at h
  obtain ⟨count, hcount, h⟩ := bind_eq_ok_iff.mp h
  dsimp only at h
  split at h
  · cases h
    exact List.forall_mem_singleton.mpr ⟨ha, fun _ _ => rfl⟩
  · next hne =>
    have hbare : a.Fits [] := fun _ hone => absurd (countOf_one hone hcount).1 hne
    cases text with
    | nil => cases h
    | cons c rest =>
      dsimp only at h
      split at h
      · cases h
      · cases hnext : p.option? (String.ofList ['-', c]) with
        | none =>
          rw [hnext] at h
          cases h
          exact List.forall_mem_singleton.mpr ⟨ha, hbare⟩
        | some b =>
          rw [hnext] at h
          dsimp only at h
          have hb := mem_arguments_of_option? hnext
          split at h
          · obtain ⟨more, hmore, h⟩ := bind_eq_ok_iff.mp h
            cases h
            exact List.forall_mem_cons.mpr ⟨⟨ha, hbare⟩, canPerform_takeFollowing hb hmore⟩
          · obtain ⟨more, hmore, h⟩ := bind_eq_ok_iff.mp h
            cases h
            refine List.forall_mem_cons.mpr ⟨⟨ha, hbare⟩, ih _ ?_ hb hmore rfl⟩
            simp only [List.length_cons] at hlength
            omega
          · obtain ⟨more, hmore, h⟩ := bind_eq_ok_iff.mp h
            cases h
            refine List.forall_mem_cons.mpr ⟨⟨ha, hbare⟩, ih _ ?_ hb hmore rfl⟩
            simp only [List.length_cons] at hlength
            omega

/-! ### Options on the command line -/

/-- The options among some tokens are options of the parser. -/
def Knows (p : Parser) (tokens : List Token) : Prop :=
  ∀ token ∈ tokens, ∀ found, token.reading = .option found → found.argument ∈ p.arguments

lemma mem_arguments_of_candidates {cs : List Char} {found : Found} (h : found ∈ p.candidates cs) :
    found.argument ∈ p.arguments := by
  unfold candidates at h
  split at h
  · obtain ⟨⟨spelling, a⟩, hspelling, h⟩ := List.mem_filterMap.mp h
    dsimp only at h
    split_ifs at h
    cases h
    exact mem_arguments_of_mem_spellings hspelling
  · obtain ⟨⟨spelling, a⟩, hspelling, h⟩ := List.mem_filterMap.mp h
    dsimp only at h
    split_ifs at h
    all_goals
      cases h
      exact mem_arguments_of_mem_spellings hspelling

lemma mem_arguments_of_spelledOut? {text : String} {found : Found}
    (h : p.spelledOut? text = some found) : found.argument ∈ p.arguments := by
  unfold spelledOut? at h
  cases hoption : p.option? text with
  | some a =>
    rw [hoption] at h
    cases h
    exact mem_arguments_of_option? hoption
  | none =>
    rw [hoption] at h
    dsimp only at h
    split at h
    · next start rest hsplit =>
      obtain ⟨a, ha, rfl⟩ := Option.map_eq_some_iff.mp h
      exact mem_arguments_of_option? ha
    · cases h

lemma mem_arguments_of_read {text : String} {found : Found}
    (h : p.read text = .ok (.option found)) : found.argument ∈ p.arguments := by
  unfold Parser.read at h
  split at h
  · split at h
    · next hspelled =>
      cases h
      exact mem_arguments_of_spelledOut? hspelled
    · split at h
      · cases h
      · split at h
        · next hcandidates =>
          cases h
          have hfound : found ∈ p.candidates text.toList := by
            rw [hcandidates]
            exact List.mem_singleton_self _
          exact mem_arguments_of_candidates hfound
        · split_ifs at h <;> cases h
        · cases h
  · cases h

lemma knows_tokens {tokens : List Token} (h : p.tokens texts = .ok tokens) : p.Knows tokens := by
  induction texts generalizing tokens with
  | nil =>
    cases h
    exact List.forall_mem_nil _
  | cons text texts ih =>
    rw [Parser.tokens] at h
    split at h
    · cases h
      refine List.forall_mem_cons.mpr ⟨nofun, fun token htoken => ?_⟩
      obtain ⟨-, -, rfl⟩ := List.mem_map.mp htoken
      nofun
    · obtain ⟨reading, hreading, h⟩ := bind_eq_ok_iff.mp h
      obtain ⟨rest, hrest, h⟩ := bind_eq_ok_iff.mp h
      cases h
      refine List.forall_mem_cons.mpr ⟨fun found hfound => ?_, ih hrest⟩
      exact mem_arguments_of_read (hreading.trans (congrArg Except.ok hfound))

lemma Keeps.takeOption {token : Token} {following : List Token} {used : Nat}
    (hk : p.Keeps run IsKept) (hknows : p.Knows [token]) (hs : p.IsSound IsKept s)
    (h : p.takeOption run s token following = .ok (s', used)) : p.IsSound IsKept s' := by
  unfold Parser.takeOption at h
  split at h
  · next found hfound =>
    obtain ⟨taken, htaken, h⟩ := bind_eq_ok_iff.mp h
    obtain ⟨performed, hperformed, h⟩ := bind_eq_ok_iff.mp h
    cases h
    have ha := hknows token (List.mem_singleton_self _) found hfound
    have hcan : p.CanPerform taken.actions := by
      have htaken := blame_eq_ok htaken
      unfold Parser.takeFound at htaken
      split at htaken
      · exact canPerform_takeFollowing ha htaken
      · exact canPerform_takeAttached ha htaken
    refine foldlM_keeps ?_ ?_ hperformed
    · rintro before ⟨a, texts⟩ after haction hbefore hafter
      obtain ⟨ha, hfits⟩ := hcan _ haction
      exact hk.perform ha hfits hbefore hafter
    · exact ⟨hs.settings, hs.waiting⟩
  · cases h
    exact ⟨hs.settings, hs.waiting⟩

/-! ### The whole command line -/

lemma Keeps.consume {tokens : List Token} (hk : p.Keeps run IsKept) (hknows : p.Knows tokens)
    (hs : p.IsSound IsKept s) (h : p.consume run s tokens = .ok s') : p.IsSound IsKept s' := by
  induction hlength : tokens.length using Nat.strongRecOn generalizing tokens s with
  | _ length ih =>
  have hrest : ∀ {token rest left}, tokens = token :: rest → left <:+ rest →
      left.length < length ∧ p.Knows left := by
    intro token rest left htokens hleft
    have hshorter := hleft.length_le
    have hlonger := congrArg List.length htokens
    rw [List.length_cons] at hlonger
    refine ⟨by omega, fun token htoken => hknows token ?_⟩
    rw [htokens]
    exact List.mem_cons_of_mem _ (hleft.subset htoken)
  unfold Parser.consume at h
  split at h
  · obtain ⟨⟨taken, count⟩, htaken, h⟩ := bind_eq_ok_iff.mp h
    cases h
    exact hk.takePlaces hs htaken
  · next token rest =>
    split at h
    · obtain ⟨⟨taken, used⟩, htaken, h⟩ := bind_eq_ok_iff.mp h
      obtain ⟨hshorter, hknows'⟩ := hrest rfl (List.drop_suffix used rest)
      have htoken : p.Knows [token] :=
        List.forall_mem_singleton.mpr (hknows token (List.mem_cons_self ..))
      exact ih _ hshorter hknows' (hk.takeOption htoken hs htaken) h rfl
    · obtain ⟨⟨taken, count⟩, htaken, h⟩ := bind_eq_ok_iff.mp h
      have hsound := hk.takePlaces hs htaken
      dsimp only at h
      cases count with
      | succ count =>
        obtain ⟨hshorter, hknows'⟩ := hrest rfl (List.drop_suffix count rest)
        exact ih _ hshorter hknows' hsound h rfl
      | zero =>
        dsimp only at h
        split at h
        · cases h
          exact ⟨hsound.settings, hsound.waiting⟩
        · obtain ⟨hshorter, hknows'⟩ := hrest rfl (List.dropWhile_suffix (!·.isOption))
          refine ih _ hshorter hknows' ?_ h rfl
          exact ⟨hsound.settings, hsound.waiting⟩

lemma Keeps.settleDefault (hk : p.Keeps run IsKept) (ha : a ∈ p.arguments)
    (hs : IsKept s.settings) (h : p.settleDefault s a = .ok s') : IsKept s'.settings := by
  unfold Parser.settleDefault at h
  split at h
  · next type arity text hrole hdefault =>
    split at h
    · split at h
      · obtain ⟨value, hvalue, h⟩ := bind_eq_ok_iff.mp h
        cases h
        exact hk.set ha (by simp [hrole]) (.readDefault hrole hdefault (blame_eq_ok hvalue)) hs
      · cases h
        exact hs
    · cases h
      exact hs
  · cases h
    exact hs

/-- What the defaults have and each change of settings keeps, the settings have that a parser makes
of any texts. -/
theorem Keeps.parseWith {parsed : Parsed} (hk : p.Keeps run IsKept)
    (h : p.parseWith run texts = .ok parsed) : IsKept parsed.settings := by
  unfold Parser.parseWith at h
  obtain ⟨tokens, htokens, h⟩ := bind_eq_ok_iff.mp h
  obtain ⟨s, hs, h⟩ := bind_eq_ok_iff.mp h
  obtain ⟨settled, hsettled, h⟩ := bind_eq_ok_iff.mp h
  have hstart : p.IsSound IsKept { settings := p.defaults, waiting := p.positionals } :=
    ⟨hk.defaults, fun a ha => by simpa [positionals] using ha⟩
  have hsound := hk.consume (knows_tokens (blame_eq_ok htokens)) hstart hs
  have hkept : IsKept settled.settings := by
    refine foldlM_keeps (P := fun s => IsKept s.settings) ?_ hsound.settings hsettled
    intro before a after ha hbefore hafter
    have ha : a ∈ (List.partition Argument.required
        (p.arguments.filter fun a => !s.met.contains a.label)).2 := ha
    rw [List.partition_eq_filter_filter] at ha
    exact hk.settleDefault (List.mem_of_mem_filter (List.mem_of_mem_filter ha)) hbefore hafter
  dsimp only at h
  split_ifs at h
  · cases h
  · cases h
    exact hkept

end Parser

end RecordSchema
