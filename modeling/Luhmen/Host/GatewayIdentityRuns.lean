/-
# Host.GatewayIdentityRuns -- one authority for all

Any number of `command`s at once, each killed wherever it stands.  A process renames a staging
directory only when it is its own and complete, and only where `gateway-ca` was missing (`guard`).
So the directory is published once, as a whole, and is never changed from then on; whoever comes
later, or comes second, goes on with it.

What a process may fail for is its `excuse`: anything at all, or nothing where requests only fail
that have to.
-/
import Luhmen.Theory.Interleaving
import Luhmen.Host.GatewayIdentity

namespace Luhmen.Host.GatewayIdentity

open Luhmen.Theory
open Run

set_option autoImplicit false

variable {crypto : Crypto} {faulty : Prop} {first : Option Entry}

/-! ## The invariant -/

def Fresh (crypto : Crypto) (d : Directory) : Prop :=
  ∃ key certificate, crypto.SelfSigned key certificate ∧ d = freshDirectory crypto key certificate

/-- The directory is the one there was, or there was none and it was published. -/
def Inv (crypto : Crypto) (first : Option Entry) (s : State) : Prop :=
  s.ca = first ∨ (first = none ∧ ∃ d, Fresh crypto d ∧ s.ca = some (.directory d))

/-- When a process may make a request. -/
def guard (crypto : Crypto) (first : Option Entry) (pid : Nat) : Request crypto → State → Prop
  | .tempdir owner, _ => owner = pid
  | .setPermissions name, s | .createNew name _, s | .writeAll name _ _, s
  | .removeStaging name, s => s.owner name = some pid
  | .rename name, s => s.owner name = some pid ∧ Entry.exists first = false ∧
      ∃ d, Fresh crypto d ∧ s.staging name = some d
  | _, _ => True

/-- What a request of process `pid` leaves alone. -/
structure Onward (pid : Nat) (s t : State) : Prop where
  ca : s.ca ≠ none → t.ca = s.ca
  owner : ∀ name p, s.owner name = some p → t.owner name = some p
  staging : ∀ name p, s.owner name = some p → p ≠ pid → t.staging name = s.staging name

theorem Onward.refl (pid : Nat) (s : State) : Onward pid s s :=
  ⟨fun _ => rfl, fun _ _ is => is, fun _ _ _ _ => rfl⟩

theorem Onward.put {pid name : Nat} {s : State} (owns : s.owner name = some pid)
    (d : Option Directory) : Onward pid s (s.putStaging name d) := by
  refine ⟨fun _ => rfl, fun _ _ is => is, fun other p is different => if_neg fun same => ?_⟩
  subst same
  exact different (Option.some.inj (is.symm.trans owns))

theorem fresh_occupied {d : Directory} (fresh : Fresh crypto d) : ¬ Vacant (some (.directory d)) := by
  obtain ⟨key, certificate, _, rfl⟩ := fresh
  rintro ⟨empty, _⟩
  exact absurd (empty .ca) (by simp [freshDirectory, Directory.put])

/-- Nothing is renamed over what is there. -/
theorem missing_of_vacant {s : State} (inv : Inv crypto first s)
    (absent : Entry.exists first = false) (vacant : Vacant s.ca) : first = none ∧ s.ca = none := by
  rcases inv with is | ⟨_, d, fresh, is⟩
  · rw [is] at vacant ⊢
    cases first with
    | none => exact ⟨rfl, rfl⟩
    | some entry =>
        cases entry with
        | directory d => cases absent
        | other resolves => exact vacant.elim
  · rw [is] at vacant
    exact absurd vacant (fresh_occupied fresh)

/-- **A step.**  Guarded requests keep the invariant, the directory once it is there, and what
belongs to others. -/
theorem exec_onward {pid : Nat} {request : Request crypto} {s t : State}
    {reply : Reply crypto request} (inv : Inv crypto first s) (allowed : guard crypto first pid request s)
    (performed : exec faulty request s reply t) : Inv crypto first t ∧ Onward pid s t := by
  have same : t = s → Inv crypto first t ∧ Onward pid s t := by
    rintro rfl
    exact ⟨inv, .refl pid t⟩
  have put : ∀ name d, s.owner name = some pid → t = s.putStaging name d →
      Inv crypto first t ∧ Onward pid s t := by
    rintro name d owns rfl
    exact ⟨inv, .put owns d⟩
  cases request with
  | caExists | fileMetadata | read | createStateDir | syncAll | syncStateDir =>
      rcases performed with failed | ⟨_, is⟩
      · exact same failed.2.2
      · exact same is
  | generateKey =>
      rcases performed with failed | ⟨_, _, is⟩
      · exact same failed.2.2
      · exact same is
  | selfSigned key =>
      rcases performed with failed | ⟨_, _, _, is⟩
      · exact same failed.2.2
      · exact same is
  | caMetadata =>
      rcases performed with failed | ⟨_, _, _, _, _, is⟩
      · exact same failed.2.2
      · exact same is
  | tempdir owner =>
      rcases performed with failed | ⟨mode, _, rfl⟩
      · exact same failed.2.2
      · have drawn : ∀ other p, s.owner other = some p → other < s.owners.length :=
          fun other p is => (List.getElem?_eq_some_iff.1 is).1
        refine ⟨inv, fun _ => rfl, fun other p is => ?_, fun other p is _ => ?_⟩
        · exact (List.getElem?_append_left (drawn other p is)).trans is
        · exact if_neg (Nat.ne_of_lt (drawn other p is))
  | setPermissions name =>
      rcases performed with failed | ⟨d, _, _, is⟩
      · exact same failed.2.2
      · exact put name _ allowed is
  | createNew name file =>
      rcases performed with failed | ⟨d, _, _, _, is⟩
      · exact same failed.2.2
      · exact put name _ allowed is
  | writeAll name file bytes =>
      rcases performed with failed | ⟨d, written, _, is, _⟩
      · exact same failed.2.2
      · exact put name _ allowed is
  | removeStaging name =>
      rcases performed with is | ⟨left, _, is⟩
      · exact same is
      · exact put name _ allowed is
  | rename name =>
      obtain ⟨owns, absent, d, fresh, staged⟩ := allowed
      rcases performed with failed | ⟨d', staged', vacant, _, rfl⟩
      · exact same failed.2.2
      · obtain rfl := Option.some.inj (staged'.symm.trans staged)
        obtain ⟨nothing, missing⟩ := missing_of_vacant inv absent vacant
        have others := Onward.put owns (none : Option Directory)
        exact ⟨.inr ⟨nothing, d', fresh, rfl⟩, fun there => absurd missing there, others.owner,
          others.staging⟩

/-! ## What a process has to know of the others -/

/-- The directory as process `pid` sees it among the others. -/
abbrev Among (crypto : Crypto) (faulty : Prop) (first : Option Entry) (pid : Nat) :
    System (Requests crypto) :=
  @System.among (Requests crypto) Nat (home faulty) (fun p => guard crypto first p) (Inv crypto first) pid

/-- What no other process can falsify. -/
def Lasting (pid : Nat) (Q : State → Prop) : Prop :=
  ∀ p s t, p ≠ pid → Onward p s t → Q s → Q t

theorem lasting_const (pid : Nat) (fact : Prop) : Lasting pid fun _ => fact :=
  fun _ _ _ _ _ holds => holds

theorem lasting_mine (pid name : Nat) : Lasting pid fun s => s.owner name = some pid :=
  fun _ _ _ _ onward is => onward.owner name pid is

/-- The staging directory of a process, and what is in it. -/
def Owns (pid name : Nat) (d : Directory) (s : State) : Prop :=
  s.owner name = some pid ∧ s.staging name = some d

theorem lasting_owns (pid name : Nat) (d : Directory) : Lasting pid (Owns pid name d) :=
  fun _ _ _ other onward owns => ⟨onward.owner name pid owns.1,
    (onward.staging name pid owns.1 fun same => other same.symm).trans owns.2⟩

theorem lasting_stands (pid : Nat) (e : Entry) : Lasting pid fun s => s.ca = some e :=
  fun _ _ _ _ onward is => (onward.ca (by simp [is])).trans is

theorem Lasting.and {pid : Nat} {P Q : State → Prop} (first : Lasting pid P) (second : Lasting pid Q) :
    Lasting pid fun s => P s ∧ Q s :=
  fun p s t other onward holds =>
    ⟨first p s t other onward holds.1, second p s t other onward holds.2⟩

theorem Lasting.exists {pid : Nat} {κ : Type} {P : κ → State → Prop}
    (each : ∀ k, Lasting pid (P k)) : Lasting pid fun s => ∃ k, P k s := by
  rintro p s t other onward ⟨k, holds⟩
  exact ⟨k, each k p s t other onward holds⟩

theorem Lasting.stable {pid : Nat} {Q : State → Prop} (lasting : Lasting pid Q) :
    (Among crypto faulty first pid).Stable fun s => Inv crypto first s ∧ Q s := by
  rintro s t ⟨inv, impossible | ⟨p, other, request, reply, allowed, performed⟩⟩ ⟨_, holds⟩
  · exact impossible.elim
  · obtain ⟨kept, onward⟩ := exec_onward inv allowed performed
    exact ⟨kept, lasting p s t other onward holds⟩

/-! ## Specs -/

section Specs

variable {pid : Nat} {excuse : Prop}

/-- The triple of a process: a failure has its excuse. -/
abbrev Spec (crypto : Crypto) (faulty : Prop) (first : Option Entry) (pid : Nat) (excuse : Prop)
    {α : Type} (Q : State → Prop) (block : Run crypto α) (R : α → State → Prop) (E : State → Prop) :
    Prop :=
  @System.Heeds (Requests crypto) (Among crypto faulty first pid) Stop α (guard crypto first pid)
    (fun s => Inv crypto first s ∧ Q s) block (fun value s => Inv crypto first s ∧ R value s)
    fun _ s => Inv crypto first s ∧ excuse ∧ E s

theorem spec_pure {α : Type} {value : α} {Q E : State → Prop} {R : α → State → Prop}
    (holds : ∀ s, Inv crypto first s → Q s → R value s) :
    Spec crypto faulty first pid excuse Q (pure value) R E :=
  System.Heeds.pure fun s here => ⟨here.1, holds s here.1 here.2⟩

theorem spec_throw {α : Type} {stop : Stop} {Q E : State → Prop} {R : α → State → Prop}
    (holds : ∀ s, Inv crypto first s → Q s → excuse ∧ E s) :
    Spec crypto faulty first pid excuse Q (throw stop : Run crypto α) R E :=
  System.Heeds.throw fun s here => ⟨here.1, holds s here.1 here.2⟩

theorem spec_weaken {α : Type} {block : Run crypto α} {Q Q' E E' : State → Prop}
    {R R' : α → State → Prop} (before : ∀ s, Inv crypto first s → Q s → Q' s)
    (spec : Spec crypto faulty first pid excuse Q' block R' E')
    (after : ∀ value s, R' value s → R value s) (fails : ∀ s, E' s → E s) :
    Spec crypto faulty first pid excuse Q block R E :=
  System.Heeds.weaken (fun s here => ⟨here.1, before s here.1 here.2⟩) spec
    (fun value s here => ⟨here.1, after value s here.2⟩)
    fun _ s here => ⟨here.1, here.2.1, fails s here.2.2⟩

/-- A fact that does not speak of the state. -/
theorem spec_given {α : Type} {block : Run crypto α} {Q E : State → Prop} {R : α → State → Prop}
    {fact : Prop} (spec : fact → Spec crypto faulty first pid excuse Q block R E) :
    Spec crypto faulty first pid excuse (fun s => fact ∧ Q s) block R E :=
  fun s here => spec here.2.1 s ⟨here.1, here.2.2⟩

theorem perform_spec {request : Request crypto} {Q E : State → Prop}
    {R : Reply crypto request → State → Prop} (lasting : Lasting pid Q)
    (allowed : ∀ s, Q s → guard crypto first pid request s)
    (performs : ∀ s reply t, Inv crypto first s → Q s → exec faulty request s reply t → R reply t) :
    Spec crypto faulty first pid excuse Q (perform request) R E := by
  refine System.Heeds.perform lasting.stable (fun s here => allowed s here.2) ?_
  intro s reply t here performed
  exact ⟨(exec_onward here.1 (allowed s here.2) performed).1, performs s reply t here.1 here.2 performed⟩

/-- A request, and `?`. -/
theorem demand_spec {α : Type} {request : Request crypto}
    {outcome : Reply crypto request → Except String α} {Q E : State → Prop} {R : α → State → Prop}
    (lasting : Lasting pid Q) (allowed : ∀ s, Q s → guard crypto first pid request s)
    (good : ∀ s reply t value, Inv crypto first s → Q s → exec faulty request s reply t →
      outcome reply = .ok value → R value t)
    (bad : ∀ s reply t message, Inv crypto first s → Q s → exec faulty request s reply t →
      outcome reply = .error message → excuse ∧ E t) :
    Spec crypto faulty first pid excuse Q (demand request outcome) R E := by
  have performed : Spec crypto faulty first pid excuse Q (perform request)
      (fun reply t => ∃ s, Inv crypto first s ∧ Q s ∧ exec faulty request s reply t) E :=
    perform_spec lasting allowed fun s reply t inv here performed => ⟨s, inv, here, performed⟩
  refine System.Heeds.bind performed fun reply => ?_
  cases result : outcome reply with
  | ok value =>
      rintro t ⟨inv, s, before, here, performed⟩
      exact ⟨inv, good s reply t value before here performed result⟩
  | error message =>
      rintro t ⟨inv, s, before, here, performed⟩
      exact ⟨inv, bad s reply t message before here performed result⟩

theorem ensure_spec {condition : Prop} [Decidable condition] {message : String}
    {Q E : State → Prop} (bad : ∀ s, Q s → ¬ condition → excuse ∧ E s) :
    Spec crypto faulty first pid excuse Q (ensure condition message)
      (fun _ s => condition ∧ Q s) E := by
  unfold ensure
  by_cases holds : condition
  · rw [if_pos holds]
    exact spec_pure fun s _ here => ⟨holds, here⟩
  · rw [if_neg holds]
    exact spec_throw fun s _ here => bad s here holds

/-! ## Loading -/

/-- The directory passes all checks, and this is its identity. -/
def Carries (crypto : Crypto) (d : Directory) (identity : crypto.Issuer × crypto.Certificate) : Prop :=
  ∃ keyData keyMode pem pemMode key,
    d.files .key = some (.regular keyData keyMode) ∧ d.files .ca = some (.regular pem pemMode) ∧
    isPrivate d.mode ∧ isPrivate keyMode ∧ keyData.length ≤ maxConfigBytes ∧
    pem.length ≤ maxConfigBytes ∧ crypto.readKey keyData = .ok key ∧
    crypto.readCertificate pem = .ok identity.2 ∧ crypto.certify identity.2 key = .ok () ∧
    crypto.issuer pem key = .ok identity.1

theorem carries_unique {d : Directory} {identity identity' : crypto.Issuer × crypto.Certificate}
    (carries : Carries crypto d identity) (carries' : Carries crypto d identity') :
    identity' = identity := by
  obtain ⟨keyData, keyMode, pem, pemMode, key, hasKey, hasPem, _, _, _, _, reads, parses, _, issues⟩ :=
    carries
  obtain ⟨keyData', keyMode', pem', pemMode', key', hasKey', hasPem', _, _, _, _, reads', parses', _,
    issues'⟩ := carries'
  obtain ⟨rfl, _⟩ : keyData' = keyData ∧ keyMode' = keyMode := by
    simpa using hasKey'.symm.trans hasKey
  obtain ⟨rfl, _⟩ : pem' = pem ∧ pemMode' = pemMode := by
    simpa using hasPem'.symm.trans hasPem
  obtain rfl : key' = key := Except.ok.inj (reads'.symm.trans reads)
  exact Prod.ext (Except.ok.inj (issues'.symm.trans issues))
    (Except.ok.inj (parses'.symm.trans parses))

/-- What a process may count on, or it has its excuse. -/
def Sound (crypto : Crypto) (e : Entry) : Prop :=
  ∃ d identity, e = .directory d ∧ Carries crypto d identity

theorem looked_cases {α : Type} {d : Directory} {file : Pem} {sees : PemFile → α → Prop}
    {reply : Except String α} (looked : Looked (some (.directory d)) file sees reply) :
    (∃ contents value, d.files file = some contents ∧ sees contents value ∧ reply = .ok value) ∨
      (d.files file = none ∧ ∃ message, reply = .error message) := by
  unfold Looked at looked
  dsimp only at looked
  cases there : d.files file with
  | none =>
      rw [there] at looked
      exact .inr ⟨rfl, looked⟩
  | some contents =>
      rw [there] at looked
      obtain ⟨value, seen, is⟩ := looked
      exact .inl ⟨contents, value, rfl, seen, is⟩

theorem orFail_spec {α : Type} {outcome : Except String α} {Q E : State → Prop}
    (bad : ∀ s message, Q s → outcome = .error message → excuse ∧ E s) :
    Spec crypto faulty first pid excuse Q (orFail outcome) (fun value s => outcome = .ok value ∧ Q s)
      E := by
  cases outcome with
  | ok value => exact spec_pure fun s _ here => ⟨rfl, here⟩
  | error message => exact spec_throw fun s _ here => bad s message here rfl

section Load

variable (faults : faulty → excuse)
include faults

theorem fileMetadata_spec {file : Pem} {d : Directory} (missing : d.files file = none → excuse) :
    Spec crypto faulty first pid excuse (fun s => s.ca = some (.directory d))
      (demand (.fileMetadata file) id)
      (fun metadata s => (∃ contents, d.files file = some contents ∧ contents.metadata metadata) ∧
        s.ca = some (.directory d)) fun _ => True := by
  refine demand_spec (lasting_stands pid _) (fun _ _ => trivial) ?_ ?_
  · rintro s reply t metadata _ here (⟨_, ⟨_, rfl⟩, _⟩ | ⟨looked, rfl⟩) ok
    · cases ok
    · rw [here] at looked
      rcases looked_cases looked with ⟨contents, value, there, seen, rfl⟩ | ⟨_, _, rfl⟩
      · obtain rfl := Except.ok.inj ok
        exact ⟨⟨contents, there, seen⟩, here⟩
      · cases ok
  · rintro s reply t message _ here (⟨may, _, _⟩ | ⟨looked, rfl⟩) ok
    · exact ⟨faults may, trivial⟩
    · rw [here] at looked
      rcases looked_cases looked with ⟨_, _, _, _, rfl⟩ | ⟨gone, _⟩
      · cases ok
      · exact ⟨missing gone, trivial⟩

theorem read_spec {β : Type} {file : Pem} {d : Directory} {data : Bytes} {mode : Nat}
    (has : d.files file = some (.regular data mode)) {outcome : Except String Bytes → Except String β}
    (errors : ∀ message value, outcome (.error message) ≠ .ok value)
    (bad : ∀ message, outcome (.ok data) = .error message → excuse) :
    Spec crypto faulty first pid excuse (fun s => s.ca = some (.directory d))
      (demand (.read file) outcome)
      (fun value s => outcome (.ok data) = .ok value ∧ s.ca = some (.directory d)) fun _ => True := by
  refine demand_spec (lasting_stands pid _) (fun _ _ => trivial) ?_ ?_
  · rintro s reply t value _ here (⟨_, ⟨_, rfl⟩, _⟩ | ⟨looked, rfl⟩) ok
    · exact absurd ok (errors _ _)
    · rw [here] at looked
      rcases looked_cases looked with ⟨contents, bytes, there, seen, rfl⟩ | ⟨_, _, rfl⟩
      · obtain rfl := seen data mode (Option.some.inj (there.symm.trans has))
        exact ⟨ok, here⟩
      · exact absurd ok (errors _ _)
  · rintro s reply t message _ here (⟨may, _, _⟩ | ⟨looked, rfl⟩) ok
    · exact ⟨faults may, trivial⟩
    · rw [here] at looked
      rcases looked_cases looked with ⟨contents, bytes, there, seen, rfl⟩ | ⟨gone, _⟩
      · obtain rfl := seen data mode (Option.some.inj (there.symm.trans has))
        exact ⟨bad message ok, trivial⟩
      · cases gone.symm.trans has

/-- A file passes its checks. -/
def Checked (d : Directory) (file : Pem) : Prop :=
  ∃ data mode, d.files file = some (.regular data mode) ∧ data.length ≤ maxConfigBytes ∧
    (file = .key → isPrivate mode)

theorem checkFile_spec {file : Pem} {d : Directory} (sound : excuse ∨ Checked d file) :
    Spec crypto faulty first pid excuse (fun s => s.ca = some (.directory d)) (checkFile file)
      (fun _ s => Checked d file ∧ s.ca = some (.directory d)) fun _ => True := by
  have missing : d.files file = none → excuse := by
    intro gone
    rcases sound with excused | ⟨data, mode, has, _⟩
    · exact excused
    · cases gone.symm.trans has
  have fails : (∀ data mode, d.files file = some (.regular data mode) →
      data.length ≤ maxConfigBytes → (file = .key → isPrivate mode) → False) → excuse := by
    intro impossible
    rcases sound with excused | ⟨data, mode, is, short, secret⟩
    · exact excused
    · exact (impossible data mode is short secret).elim
  refine System.Heeds.bind (fileMetadata_spec faults missing) fun metadata => ?_
  refine spec_given ?_
  rintro ⟨contents, has, seen⟩
  have regular : ∀ data mode, d.files file = some (.regular data mode) →
      metadata.kind = .file ∧ metadata.mode = mode ∧ metadata.length = data.length := by
    intro data mode is
    obtain rfl := Option.some.inj (has.symm.trans is)
    exact seen
  refine System.Heeds.bind (ensure_spec fun s _ other => ?_) fun _ => spec_given fun isFile => ?_
  · exact ⟨fails fun data mode is _ _ => other (regular data mode is).1, trivial⟩
  refine System.Heeds.bind (ensure_spec fun s _ long => ?_) fun _ => spec_given fun isShort => ?_
  · exact ⟨fails fun data mode is short _ => long ((regular data mode is).2.2 ▸ short), trivial⟩
  have secret : ∀ s : State, s.ca = some (.directory d) →
      ¬ (file = .key → isPrivate metadata.mode) → excuse ∧ True := by
    intro s _ exposed
    exact ⟨fails fun data mode is _ secret => exposed fun key => (regular data mode is).2.1 ▸ secret key,
      trivial⟩
  refine spec_weaken (fun _ _ here => here) (ensure_spec secret) (fun _ s here => ⟨?_, here.2⟩)
    fun _ _ => trivial
  cases contents with
  | other => exact absurd isFile seen
  | regular data mode =>
      exact ⟨data, mode, has, seen.2.2 ▸ isShort, fun key => seen.2.1 ▸ here.1 key⟩

theorem loadFiles_spec {d : Directory} {mode : Nat} (is : mode = d.mode)
    (carries : excuse ∨ ∃ identity, Carries crypto d identity) :
    Spec crypto faulty first pid excuse (fun s => s.ca = some (.directory d)) (loadFiles mode)
      (fun identity s => ∃ d, s.ca = some (.directory d) ∧ Carries crypto d identity)
      fun _ => True := by
  have fails : (∀ identity, Carries crypto d identity → False) → excuse := by
    intro impossible
    rcases carries with excused | ⟨identity, carries⟩
    · exact excused
    · exact (impossible identity carries).elim
  have checked : ∀ file, excuse ∨ Checked d file := by
    intro file
    rcases carries with excused | ⟨_, keyData, keyMode, pem, pemMode, _, hasKey, hasPem, _, secret,
      short, short', _⟩
    · exact .inl excused
    · cases file with
      | key => exact .inr ⟨keyData, keyMode, hasKey, short, fun _ => secret⟩
      | ca => exact .inr ⟨pem, pemMode, hasPem, short', fun is => by cases is⟩
  refine System.Heeds.bind (ensure_spec fun s _ exposed => ?_) fun _ => spec_given fun secret => ?_
  · refine ⟨fails fun identity carries => ?_, trivial⟩
    obtain ⟨_, _, _, _, _, _, _, secret, _⟩ := carries
    exact exposed (is ▸ secret)
  refine System.Heeds.bind (checkFile_spec faults (checked .key)) fun _ => spec_given ?_
  rintro ⟨keyData, keyMode, hasKey, keyShort, keySecret⟩
  refine System.Heeds.bind (checkFile_spec faults (checked .ca)) fun _ => spec_given ?_
  rintro ⟨pem, pemMode, hasPem, pemShort, _⟩
  -- what a sound directory says of the files that were found
  have sound : (∀ key certificate issuer, crypto.readKey keyData = .ok key →
      crypto.readCertificate pem = .ok certificate → crypto.certify certificate key = .ok () →
      crypto.issuer pem key = .ok issuer → False) → excuse := by
    intro impossible
    refine fails fun identity carries => ?_
    obtain ⟨keyData', _, pem', _, key, hasKey', hasPem', _, _, _, _, reads, parses, certifies,
      issues⟩ := carries
    obtain ⟨rfl, _⟩ : keyData' = keyData ∧ _ = keyMode := by simpa using hasKey'.symm.trans hasKey
    obtain ⟨rfl, _⟩ : pem' = pem ∧ _ = pemMode := by simpa using hasPem'.symm.trans hasPem
    exact impossible key identity.2 identity.1 reads parses certifies issues
  refine System.Heeds.bind (read_spec faults hasKey (fun _ _ => by simp [Except.bind]) ?_) fun key =>
    spec_given fun reads => ?_
  · intro message failed
    exact sound fun key _ _ reads _ _ _ => by simp [Except.bind, reads] at failed
  replace reads : crypto.readKey keyData = .ok key := reads
  refine System.Heeds.bind (read_spec faults hasPem (fun _ _ ok => by cases ok) ?_) fun found =>
    spec_given fun isPem => ?_
  · intro message failed
    cases failed
  obtain rfl : pem = found := Except.ok.inj isPem
  refine System.Heeds.bind (orFail_spec fun s message _ failed => ?_) fun certificate =>
    spec_given fun parsed => ?_
  · exact ⟨sound fun _ _ _ _ parses _ _ => by simp [parses, Except.mapError] at failed, trivial⟩
  have parses : crypto.readCertificate pem = .ok certificate := by
    cases result : crypto.readCertificate pem with
    | ok value => simpa [result, Except.mapError] using parsed
    | error message => simp [result, Except.mapError] at parsed
  refine System.Heeds.bind (orFail_spec fun s message _ failed => ?_) fun _ =>
    spec_given fun certifies => ?_
  · refine ⟨sound fun key' certificate' _ reads' parses' certifies _ => ?_, trivial⟩
    obtain rfl : key' = key := Except.ok.inj (reads'.symm.trans reads)
    obtain rfl : certificate' = certificate := Except.ok.inj (parses'.symm.trans parses)
    cases certifies.symm.trans failed
  refine System.Heeds.bind (orFail_spec fun s message _ failed => ?_) fun issuer =>
    spec_given fun issues => ?_
  · refine ⟨sound fun key' _ issuer reads' _ _ issues => ?_, trivial⟩
    obtain rfl : key' = key := Except.ok.inj (reads'.symm.trans reads)
    cases issues.symm.trans failed
  exact spec_pure fun s _ here => ⟨d, here, keyData, keyMode, pem, pemMode, key, hasKey, hasPem,
    is ▸ secret, keySecret rfl, keyShort, pemShort, reads, parses, certifies, issues⟩

/-- **Loading** what nobody changes. -/
theorem loadCa_spec {e : Entry} (sound : excuse ∨ Sound crypto e) :
    Spec crypto faulty first pid excuse (fun s => s.ca = some e) loadCa
      (fun identity s => ∃ d, s.ca = some (.directory d) ∧ Carries crypto d identity)
      fun _ => True := by
  have looked : Spec crypto faulty first pid excuse (fun s => s.ca = some e) (demand .caMetadata id)
      (fun metadata s => e.metadata metadata ∧ s.ca = some e) fun _ => True := by
    refine demand_spec (lasting_stands pid _) (fun _ _ => trivial) ?_ ?_
    · rintro s reply t metadata _ here (⟨_, ⟨_, rfl⟩, _⟩ | ⟨entry, _, there, seen, rfl, rfl⟩) ok
      · cases ok
      · obtain rfl := Option.some.inj (there.symm.trans here)
        obtain rfl := Except.ok.inj ok
        exact ⟨seen, here⟩
    · rintro s reply t message _ here (⟨may | gone, _, _⟩ | ⟨_, _, _, _, rfl, _⟩) ok
      · exact ⟨faults may, trivial⟩
      · cases gone.symm.trans here
      · cases ok
  refine System.Heeds.bind looked fun metadata => spec_given fun seen => ?_
  refine System.Heeds.bind (ensure_spec fun s _ other => ?_) fun _ => spec_given fun isDirectory => ?_
  · rcases sound with excused | ⟨d, _, rfl, _⟩
    · exact ⟨excused, trivial⟩
    · exact absurd seen.1 other
  cases e with
  | other resolves => exact absurd isDirectory seen
  | directory d =>
      have carries : excuse ∨ ∃ identity, Carries crypto d identity := by
        rcases sound with excused | ⟨d', identity, is, carries⟩
        · exact .inl excused
        · obtain rfl := Entry.directory.inj is
          exact .inr ⟨identity, carries⟩
      exact loadFiles_spec faults seen.2 carries

end Load

/-! ## Creating -/

/-- An initializer has published its directory, this one or another. -/
def Published (crypto : Crypto) (s : State) : Prop :=
  ∃ d, Fresh crypto d ∧ s.ca = some (.directory d)

theorem lasting_published (pid : Nat) : Lasting pid (Published crypto) :=
  .exists fun _ => .and (lasting_const pid _) (lasting_stands pid _)

theorem Directory.put_put (d : Directory) (file : Pem) (old new : PemFile) :
    (d.put file old).put file new = d.put file new := by
  unfold Directory.put
  congr 1
  funext other
  by_cases is : other = file
  · simp only [if_pos is]
  · simp only [if_neg is]

section Create

variable (faults : faulty → excuse)
include faults

section Staging

variable {name : Nat} {d : Directory}

theorem setPermissions_spec :
    Spec crypto faulty first pid excuse (Owns pid name d) (demand (.setPermissions name) id)
      (fun _ => Owns pid name { d with mode := 0o700 }) fun s => s.owner name = some pid := by
  refine demand_spec (lasting_owns pid name d) (fun _ owns => owns.1) ?_ ?_
  · rintro s reply t _ _ owns (⟨_, ⟨_, rfl⟩, _⟩ | ⟨d', staged, _, rfl⟩) ok
    · cases ok
    · obtain rfl := Option.some.inj (staged.symm.trans owns.2)
      exact ⟨owns.1, if_pos rfl⟩
  · rintro s reply t _ _ owns (⟨may | gone, _, rfl⟩ | ⟨_, _, rfl, _⟩) ok
    · exact ⟨faults may, owns.1⟩
    · cases gone.symm.trans owns.2
    · cases ok

theorem createNew_spec {file : Pem} (absent : d.files file = none) :
    Spec crypto faulty first pid excuse (Owns pid name d) (demand (.createNew name file) id)
      (fun _ => Owns pid name (d.put file (.regular [] 0o600))) fun s => s.owner name = some pid := by
  refine demand_spec (lasting_owns pid name d) (fun _ owns => owns.1) ?_ ?_
  · rintro s reply t _ _ owns (⟨_, ⟨_, rfl⟩, _⟩ | ⟨d', staged, _, _, rfl⟩) ok
    · cases ok
    · obtain rfl := Option.some.inj (staged.symm.trans owns.2)
      exact ⟨owns.1, if_pos rfl⟩
  · rintro s reply t _ _ owns (⟨may | taken, _, rfl⟩ | ⟨_, _, _, rfl, _⟩) ok
    · exact ⟨faults may, owns.1⟩
    · exact absurd absent (taken d owns.2)
    · cases ok

theorem writeAll_spec {file : Pem} {bytes : Bytes} (there : d.files file ≠ none) :
    Spec crypto faulty first pid excuse (Owns pid name d) (demand (.writeAll name file bytes) id)
      (fun _ => Owns pid name (d.put file (.regular bytes 0o600))) fun s => s.owner name = some pid := by
  refine demand_spec (lasting_owns pid name d) (fun _ owns => owns.1) ?_ ?_
  · rintro s reply t _ _ owns
      (⟨_, ⟨_, rfl⟩, _⟩ | ⟨d', written, staged, rfl, ⟨_, rfl⟩ | ⟨_, _, rfl⟩⟩) ok
    · cases ok
    · obtain rfl := Option.some.inj (staged.symm.trans owns.2)
      exact ⟨owns.1, if_pos rfl⟩
    · cases ok
  · rintro s reply t _ _ owns
      (⟨may | missing, _, rfl⟩ | ⟨d', written, staged, rfl, ⟨rfl, _⟩ | ⟨may, _⟩⟩) ok
    · exact ⟨faults may, owns.1⟩
    · exact absurd (missing d owns.2) there
    · cases ok
    · exact ⟨faults may, owns.1⟩

/-- A request without an effect that can fail. -/
theorem idle_spec {request : Request crypto} {α : Type} {outcome : Reply crypto request → Except String α}
    {Q E : State → Prop} {fact : α → Prop} (lasting : Lasting pid Q)
    (allowed : ∀ s, guard crypto first pid request s)
    (idles : ∀ s reply t, exec faulty request s reply t → t = s ∧
      (faulty ∨ ∃ value, outcome reply = .ok value))
    (gives : ∀ s reply t value, exec faulty request s reply t → outcome reply = .ok value → fact value)
    (fails : ∀ s, Q s → E s) :
    Spec crypto faulty first pid excuse Q (demand request outcome)
      (fun value s => fact value ∧ Q s) E := by
  refine demand_spec lasting (fun s _ => allowed s) ?_ ?_
  · intro s reply t value _ here performed ok
    obtain rfl := (idles s reply t performed).1
    exact ⟨gives _ reply _ value performed ok, here⟩
  · intro s reply t message _ here performed failed
    obtain ⟨rfl, may | ⟨value, ok⟩⟩ := idles s reply t performed
    · exact ⟨faults may, fails _ here⟩
    · cases ok.symm.trans failed

theorem writePrivate_spec {file : Pem} {bytes : Bytes} (absent : d.files file = none) :
    Spec crypto faulty first pid excuse (Owns pid name d) (writePrivate name file bytes)
      (fun _ => Owns pid name (d.put file (.regular bytes 0o600))) fun s => s.owner name = some pid := by
  refine System.Heeds.bind (createNew_spec faults absent) fun _ => ?_
  refine System.Heeds.bind (writeAll_spec faults (by simp [Directory.put])) fun _ => ?_
  rw [Directory.put_put]
  have synced : Spec crypto faulty first pid excuse (Owns pid name (d.put file (.regular bytes 0o600)))
      (demand (.syncAll name file) id)
      (fun _ s => True ∧ Owns pid name (d.put file (.regular bytes 0o600)) s)
      fun s => s.owner name = some pid := by
    refine idle_spec faults (lasting_owns pid name _) (fun _ => trivial) ?_ (fun _ _ _ _ _ _ => trivial)
      fun _ owns => owns.1
    rintro s reply t (⟨may, _, rfl⟩ | ⟨rfl, rfl⟩)
    · exact ⟨rfl, .inl may⟩
    · exact ⟨rfl, .inr ⟨(), rfl⟩⟩
  exact spec_weaken (fun _ _ here => here) synced (fun _ _ here => here.2) fun _ here => here

/-- **The rename**, or the rename of another initializer. -/
theorem publish_spec (fresh : Fresh crypto d) (absent : Entry.exists first = false)
    (start : excuse ∨ first = none) :
    Spec crypto faulty first pid excuse (Owns pid name d) (publish name)
      (fun _ s => s.owner name = some pid ∧ Published crypto s) fun s => s.owner name = some pid := by
  have renamed : Spec crypto faulty first pid excuse (Owns pid name d) (perform (.rename name))
      (fun (reply : Except String Unit) s => s.owner name = some pid ∧
        (reply = .ok () → Published crypto s) ∧ (excuse ∨ Published crypto s))
      fun s => s.owner name = some pid := by
    refine perform_spec (lasting_owns pid name d)
      (fun _ owns => ⟨owns.1, absent, d, fresh, owns.2⟩) ?_
    rintro s reply t inv owns (⟨may, ⟨_, rfl⟩, rfl⟩ | ⟨d', staged, vacant, rfl, rfl⟩)
    · refine ⟨owns.1, (fun ok => by cases ok), ?_⟩
      rcases may with may | gone | occupied
      · exact .inl (faults may)
      · cases gone.symm.trans owns.2
      · rcases inv with is | ⟨_, d', fresh', is⟩
        · rcases start with excused | none
          · exact .inl excused
          · rw [is, none] at occupied
            exact absurd trivial occupied
        · exact .inr ⟨d', fresh', is⟩
    · obtain rfl := Option.some.inj (staged.symm.trans owns.2)
      have published : Published crypto
          { s.putStaging name none with ca := some (.directory d') } := ⟨d', fresh, rfl⟩
      exact ⟨owns.1, fun _ => published, .inr published⟩
  refine System.Heeds.bind renamed fun reply => ?_
  cases reply with
  | ok value => exact spec_pure fun s _ here => ⟨here.1, here.2.1 rfl⟩
  | error message =>
      have lasting : Lasting pid fun s : State => s.owner name = some pid ∧
          (excuse ∨ Published crypto s) := by
        intro p s t other onward here
        exact ⟨lasting_mine pid name p s t other onward here.1,
          here.2.imp id (lasting_published pid p s t other onward)⟩
      have looked : Spec crypto faulty first pid excuse
          (fun s => s.owner name = some pid ∧ (excuse ∨ Published crypto s)) (demand .caExists id)
          (fun present s => s.owner name = some pid ∧ (present = true → Published crypto s) ∧
            (¬ present = true → excuse))
          fun s => s.owner name = some pid := by
        refine demand_spec lasting (fun _ _ => trivial) ?_ ?_
        · rintro s reply t present inv here (⟨_, ⟨_, rfl⟩, _⟩ | ⟨rfl, rfl⟩) ok
          · cases ok
          · obtain rfl := Except.ok.inj ok
            refine ⟨here.1, fun there => ?_, fun missing => ?_⟩
            · rcases inv with is | ⟨_, published⟩
              · rw [is, absent] at there
                cases there
              · exact published
            · rcases here.2 with excused | ⟨d', _, is⟩
              · exact excused
              · rw [is] at missing
                exact absurd rfl missing
        · rintro s reply t _ _ here (⟨may, _, rfl⟩ | ⟨rfl, _⟩) ok
          · exact ⟨faults may, here.1⟩
          · cases ok
      refine System.Heeds.bind (spec_weaken (fun _ _ here => ⟨here.1, here.2.2⟩) looked
        (fun _ _ here => here) fun _ here => here) fun present => ?_
      refine spec_weaken (fun _ _ here => here) (ensure_spec fun s here missing => ?_)
        (fun _ s here => ⟨here.2.1, here.2.2.1 here.1⟩) fun _ here => here
      exact ⟨here.2.2 missing, here.1⟩

/-- What is done while the staging directory is held. -/
theorem fill_spec {mode : Nat} (absent : Entry.exists first = false) (start : excuse ∨ first = none) :
    Spec crypto faulty first pid excuse (Owns pid name ⟨mode, fun _ => none, false⟩) (fill name)
      (fun _ s => s.owner name = some pid ∧ Published crypto s) fun s => s.owner name = some pid := by
  refine System.Heeds.bind (setPermissions_spec faults) fun _ => ?_
  have generated : Spec crypto faulty first pid excuse (Owns pid name ⟨0o700, fun _ => none, false⟩)
      (demand .generateKey (Except.mapError fun _ => "generate local CA key"))
      (fun _ s => True ∧ Owns pid name ⟨0o700, fun _ => none, false⟩ s)
      fun s => s.owner name = some pid := by
    refine idle_spec faults (lasting_owns pid name _) (fun _ => trivial) ?_ (fun _ _ _ _ _ _ => trivial)
      fun _ owns => owns.1
    rintro s reply t (⟨may, _, rfl⟩ | ⟨key, rfl, rfl⟩)
    · exact ⟨rfl, .inl may⟩
    · exact ⟨rfl, .inr ⟨key, rfl⟩⟩
  refine System.Heeds.bind generated fun key => spec_given fun _ => ?_
  have signed : Spec crypto faulty first pid excuse (Owns pid name ⟨0o700, fun _ => none, false⟩)
      (demand (.selfSigned key) (Except.mapError fun _ => "generate local CA certificate"))
      (fun certificate s => crypto.SelfSigned key certificate ∧
        Owns pid name ⟨0o700, fun _ => none, false⟩ s)
      fun s => s.owner name = some pid := by
    refine idle_spec faults (lasting_owns pid name _) (fun _ => trivial) ?_ ?_ fun _ owns => owns.1
    · rintro s reply t (⟨may, _, rfl⟩ | ⟨certificate, _, rfl, rfl⟩)
      · exact ⟨rfl, .inl may⟩
      · exact ⟨rfl, .inr ⟨certificate, rfl⟩⟩
    · rintro s reply t value (⟨_, ⟨_, rfl⟩, _⟩ | ⟨certificate, signs, rfl, _⟩) ok
      · cases ok
      · obtain rfl : certificate = value := Except.ok.inj ok
        exact signs
  refine System.Heeds.bind signed fun certificate => spec_given fun signs => ?_
  refine System.Heeds.bind (writePrivate_spec faults rfl) fun _ => ?_
  refine System.Heeds.bind (writePrivate_spec faults rfl) fun _ => ?_
  have fresh : Fresh crypto (freshDirectory crypto key certificate) := ⟨key, certificate, signs, rfl⟩
  refine System.Heeds.bind (publish_spec faults fresh absent start) fun _ => ?_
  have synced : Spec crypto faulty first pid excuse
      (fun s => s.owner name = some pid ∧ Published crypto s) (demand .syncStateDir id)
      (fun _ s => True ∧ s.owner name = some pid ∧ Published crypto s)
      fun s => s.owner name = some pid := by
    refine idle_spec faults (.and (lasting_mine pid name) (lasting_published pid)) (fun _ => trivial) ?_
      (fun _ _ _ _ _ _ => trivial) fun _ here => here.1
    rintro s reply t (⟨may, _, rfl⟩ | ⟨rfl, rfl⟩)
    · exact ⟨rfl, .inl may⟩
    · exact ⟨rfl, .inr ⟨(), rfl⟩⟩
  exact spec_weaken (fun _ _ here => here) synced (fun _ _ here => here.2) fun _ here => here

end Staging

theorem create_spec (absent : Entry.exists first = false) (start : excuse ∨ first = none) :
    Spec crypto faulty first pid excuse (fun _ => True) (create pid) (fun _ => Published crypto)
      fun _ => True := by
  have drawn : Spec crypto faulty first pid excuse (fun _ => True) (demand (.tempdir pid) id)
      (fun name s => ∃ mode, Owns pid name ⟨mode, fun _ => none, false⟩ s) fun _ => True := by
    refine demand_spec (lasting_const pid True) (fun _ _ => rfl) ?_ ?_
    · rintro s reply t name _ _ (⟨_, ⟨_, rfl⟩, _⟩ | ⟨mode, rfl, rfl⟩) ok
      · cases ok
      · obtain rfl : s.owners.length = name := Except.ok.inj ok
        exact ⟨mode, List.getElem?_concat_length, if_pos rfl⟩
    · rintro s reply t _ _ _ (⟨may, _, _⟩ | ⟨_, rfl, _⟩) ok
      · exact ⟨faults may, trivial⟩
      · cases ok
  refine System.Heeds.bind drawn fun name => ?_
  rintro s ⟨inv, mode, owns⟩
  refine System.Heeds.bind (System.Heeds.attempt (fill_spec faults absent start)) (fun result => ?_) s
    ⟨inv, owns⟩
  have kept : ∀ (s : State) (reply : Except String Unit) (t : State),
      @exec crypto faulty (.removeStaging name) s reply t → t.ca = s.ca := by
    rintro s reply t (rfl | ⟨left, _, rfl⟩) <;> rfl
  cases result with
  | ok value =>
      have removed : Spec crypto faulty first pid excuse
          (fun s => s.owner name = some pid ∧ Published crypto s) (perform (.removeStaging name))
          (fun _ => Published crypto) fun _ => True := by
        refine perform_spec (.and (lasting_mine pid name) (lasting_published pid))
          (fun _ here => here.1) ?_
        rintro s reply t _ ⟨_, d, fresh, is⟩ performed
        exact ⟨d, fresh, (kept s reply t performed).trans is⟩
      exact System.Heeds.bind removed fun _ => spec_pure fun _ _ here => here
  | error stop =>
      have removed : Spec crypto faulty first pid excuse
          (fun s => excuse ∧ s.owner name = some pid) (perform (.removeStaging name))
          (fun _ _ => excuse) fun _ => True :=
        perform_spec (.and (lasting_const pid excuse) (lasting_mine pid name)) (fun _ here => here.2)
          fun _ _ _ _ here _ => here.1
      exact System.Heeds.bind removed fun _ => spec_throw fun _ _ excused => ⟨excused, trivial⟩

end Create

/-! ## Commands -/

/-- What the libraries promise of the texts they write. -/
structure Crypto.Lawful (crypto : Crypto) : Prop where
  readKey : ∀ key, crypto.readKey (crypto.keyPem key) = .ok key
  readCertificate : ∀ certificate,
    crypto.readCertificate (crypto.certificatePem certificate) = .ok certificate
  certify : ∀ key certificate, crypto.SelfSigned key certificate →
    crypto.certify certificate key = .ok ()
  issuer : ∀ key certificate, crypto.SelfSigned key certificate →
    ∃ issuer, crypto.issuer (crypto.certificatePem certificate) key = .ok issuer
  keyLength : ∀ key, (crypto.keyPem key).length ≤ maxConfigBytes
  certificateLength : ∀ certificate, (crypto.certificatePem certificate).length ≤ maxConfigBytes

theorem sound_fresh (lawful : crypto.Lawful) {d : Directory} (fresh : Fresh crypto d) :
    Sound crypto (.directory d) := by
  obtain ⟨key, certificate, signs, rfl⟩ := fresh
  obtain ⟨issuer, issues⟩ := lawful.issuer key certificate signs
  have secret : isPrivate 0o700 ∧ isPrivate 0o600 := by decide
  exact ⟨_, (issuer, certificate), rfl, crypto.keyPem key, 0o600, crypto.certificatePem certificate,
    0o600, key, rfl, rfl, secret.1, secret.2, lawful.keyLength key,
    lawful.certificateLength certificate, lawful.readKey key, lawful.readCertificate certificate,
    lawful.certify key certificate signs, issues⟩

/-- Nothing stands in the way of an initializer. -/
def Good (crypto : Crypto) (first : Option Entry) : Prop :=
  crypto.Lawful ∧ (first = none ∨ ∃ e, first = some e ∧ Sound crypto e)

/-- What a command that is done goes on with. -/
def Settled (crypto : Crypto) (value : Option (crypto.Issuer × crypto.Certificate)) (s : State) : Prop :=
  ∃ d, s.ca = some (.directory d) ∧ (∃ identity, Carries crypto d identity) ∧
    ∀ identity, value = some identity → Carries crypto d identity

theorem lasting_settled (pid : Nat) (value : Option (crypto.Issuer × crypto.Certificate)) :
    Lasting pid (Settled crypto value) :=
  .exists fun _ => .and (lasting_stands pid _) (lasting_const pid _)

section Commands

variable (faults : faulty → excuse) (start : excuse ∨ Good crypto first)
include faults start

omit faults in
theorem sound_of_stands {s : State} {e : Entry} (inv : Inv crypto first s) (is : s.ca = some e) :
    excuse ∨ Sound crypto e := by
  rcases start with excused | ⟨lawful, before⟩
  · exact .inl excused
  · rcases inv with same | ⟨_, d, fresh, published⟩
    · rcases before with none | ⟨e', is', sound⟩
      · cases (same.symm.trans is).symm.trans none
      · obtain rfl := Option.some.inj (is'.symm.trans (same.symm.trans is))
        exact .inr sound
    · obtain rfl := Option.some.inj (published.symm.trans is)
      exact .inr (sound_fresh lawful fresh)

omit faults in
theorem missing_of_absent (absent : Entry.exists first = false) : excuse ∨ first = none := by
  rcases start with excused | ⟨_, none | ⟨_, rfl, _, _, rfl, _⟩⟩
  · exact .inl excused
  · exact .inr none
  · cases absent

theorem ensureCa_spec :
    Spec crypto faulty first pid excuse (fun _ => True) (ensureCa pid) (fun _ s => ∃ e, s.ca = some e)
      fun _ => True := by
  have looked : Spec crypto faulty first pid excuse (fun _ => True) (demand .caExists id)
      (fun present s => (present = true → ∃ e, s.ca = some e) ∧
        (present = false → Entry.exists first = false)) fun _ => True := by
    refine demand_spec (lasting_const pid True) (fun _ _ => trivial) ?_ ?_
    · rintro s reply t present inv _ (⟨_, ⟨_, rfl⟩, _⟩ | ⟨rfl, rfl⟩) ok
      · cases ok
      · obtain rfl := Except.ok.inj ok
        refine ⟨fun there => ?_, fun missing => ?_⟩
        · cases is : t.ca with
          | none =>
              rw [is] at there
              cases there
          | some e => exact ⟨e, rfl⟩
        · rcases inv with same | ⟨_, d, _, published⟩
          · exact same ▸ missing
          · rw [published] at missing
            cases missing
    · rintro s reply t _ _ _ (⟨may, _, _⟩ | ⟨rfl, _⟩) ok
      · exact ⟨faults may, trivial⟩
      · cases ok
  refine System.Heeds.bind looked fun present => ?_
  cases present with
  | true => exact spec_pure fun _ _ here => here.1 rfl
  | false =>
      rintro s ⟨inv, _, absent⟩
      have absent := absent rfl
      have created : Spec crypto faulty first pid excuse (fun _ => True) (create pid)
          (fun _ s => ∃ e, s.ca = some e) fun _ => True :=
        spec_weaken (fun _ _ here => here) (create_spec faults absent (missing_of_absent start absent))
          (fun _ _ published => ⟨_, published.choose_spec.2⟩) fun _ here => here
      exact created s ⟨inv, trivial⟩

theorem load_spec :
    Spec crypto faulty first pid excuse (fun s => ∃ e, s.ca = some e) loadCa
      (fun identity s => ∃ d, s.ca = some (.directory d) ∧ Carries crypto d identity)
      fun _ => True := by
  rintro s ⟨inv, e, is⟩
  exact loadCa_spec faults (sound_of_stands start inv is) s ⟨inv, is⟩

theorem init_spec :
    Spec crypto faulty first pid excuse (fun _ => True) (init pid)
      (fun _ s => ∃ identity d, s.ca = some (.directory d) ∧ Carries crypto d identity)
      fun _ => True := by
  have made : Spec crypto faulty first pid excuse (fun _ => True)
      (demand .createStateDir (Except.mapError fun _ => "create gateway state directory"))
      (fun _ _ => True ∧ True) fun _ => True := by
    refine idle_spec faults (lasting_const pid True) (fun _ => trivial) ?_ (fun _ _ _ _ _ _ => trivial)
      fun _ here => here
    rintro s reply t (⟨may, _, rfl⟩ | ⟨rfl, rfl⟩)
    · exact ⟨rfl, .inl may⟩
    · exact ⟨rfl, .inr ⟨(), rfl⟩⟩
  refine System.Heeds.bind made fun _ => spec_given fun _ => ?_
  refine System.Heeds.bind (ensureCa_spec faults start) fun _ => ?_
  refine System.Heeds.bind (System.Heeds.attempt (load_spec faults start)) fun loaded => ?_
  cases loaded with
  | ok identity => exact spec_pure fun _ _ here => ⟨identity, here⟩
  | error stop => exact spec_throw fun _ _ here => here

theorem command_spec (which : Command) :
    Spec crypto faulty first pid excuse (fun _ => True) (command pid which) (Settled crypto)
      fun _ => True := by
  have initialized := @init_spec crypto faulty first pid excuse faults start
  cases which with
  | cert =>
      refine System.Heeds.bind initialized fun _ => spec_pure fun s _ here => ?_
      obtain ⟨identity, d, is, carries⟩ := here
      exact ⟨d, is, ⟨identity, carries⟩, fun _ none => by cases none⟩
  | daemon =>
      have loaded : Spec crypto faulty first pid excuse (fun _ => True) (tlsIdentity pid)
          (fun identity s => ∃ d, s.ca = some (.directory d) ∧ Carries crypto d identity)
          fun _ => True :=
        System.Heeds.bind initialized fun _ =>
          spec_weaken (fun _ _ here => ⟨_, here.choose_spec.choose_spec.1⟩) (load_spec faults start)
            (fun _ _ here => here) fun _ here => here
      refine System.Heeds.bind loaded fun identity => spec_pure fun s _ here => ?_
      obtain ⟨d, is, carries⟩ := here
      exact ⟨d, is, ⟨identity, carries⟩, fun _ some => Option.some.inj some ▸ carries⟩

end Commands

end Specs

/-! ## Processes -/

/-- The processes, each with its command. -/
def processes (crypto : Crypto) (commands : Nat → Command) (pid : Nat) :
    Program (Requests crypto) (Except Stop (Option (crypto.Issuer × crypto.Certificate))) :=
  (command pid (commands pid)).run

abbrev Processes (crypto : Crypto) (faulty : Prop) :=
  Pool (@home crypto faulty) Nat (Except Stop (Option (crypto.Issuer × crypto.Certificate)))

section Processes

variable {commands : Nat → Command} {start m m' : Processes crypto faulty}

/-- How a process ends. -/
def Ends (crypto : Crypto) (first : Option Entry) (excuse : Prop) :
    Except Stop (Option (crypto.Issuer × crypto.Certificate)) → State → Prop
  | .ok value, s => Inv crypto first s ∧ Settled crypto value s
  | .error _, s => Inv crypto first s ∧ excuse ∧ True

theorem ends_stable {excuse : Prop} (pid : Nat)
    (result : Except Stop (Option (crypto.Issuer × crypto.Certificate))) :
    (Among crypto faulty first pid).Stable (Ends crypto first excuse result) := by
  cases result with
  | ok value => exact Lasting.stable (lasting_settled pid value)
  | error stop => exact Lasting.stable (lasting_const pid (excuse ∧ True))

theorem processes_guarded {excuse : Prop} (faults : faulty → excuse)
    (good : excuse ∨ Good crypto first) (pid : Nat) (s : State) (inv : Inv crypto first s) :
    (Among crypto faulty first pid).Guarded (guard crypto first pid) (Ends crypto first excuse)
      (processes crypto commands pid) s := by
  refine System.Guarded.mono (fun result s ended => ?_)
    (command_spec faults good (commands pid) s ⟨inv, trivial⟩)
  cases result with
  | ok value => exact ended
  | error stop => exact ended

theorem reaches_heeding {excuse : Prop} (faults : faulty → excuse)
    (good : excuse ∨ Good crypto start.state.ca) (idle : ∀ pid, start.running pid = none)
    (reaches : Pool.Reaches (processes crypto commands) start m) :
    Pool.Heeding (fun pid => guard crypto start.state.ca pid) (Inv crypto start.state.ca)
      (fun _ => Ends crypto start.state.ca excuse) m := by
  refine Pool.guarded (S := @home crypto faulty) (fun _ _ _ impossible => impossible.elim)
    (fun pid request s reply t inv allowed performed => (exec_onward inv allowed performed).1)
    (fun pid result => ends_stable pid result) (fun pid s inv => processes_guarded faults good pid s inv)
    ⟨.inl rfl, fun pid program running => ?_⟩ reaches
  cases (idle pid).symm.trans running

theorem reaches_ends {excuse : Prop} (faults : faulty → excuse)
    (good : excuse ∨ Good crypto start.state.ca) (idle : ∀ pid, start.running pid = none)
    (reaches : Pool.Reaches (processes crypto commands) start m) {pid : Nat}
    {result : Except Stop (Option (crypto.Issuer × crypto.Certificate))}
    (done : m.running pid = some (.done result)) : Ends crypto start.state.ca excuse result m.state :=
  (reaches_heeding faults good idle reaches).2 pid _ done

/-- The directory stays what it is. -/
theorem reaches_kept (idle : ∀ pid, start.running pid = none)
    (reaches : Pool.Reaches (processes crypto commands) start m)
    (later : Pool.Reaches (processes crypto commands) m m') (there : m.state.ca ≠ none) :
    m'.state.ca = m.state.ca := by
  have heeding := reaches_heeding (fun _ => trivial) (.inl trivial) idle reaches
  have between := Pool.between (S := @home crypto faulty)
    (fun s t => s.ca ≠ none → t.ca = s.ca) (fun _ _ => rfl)
    (fun s t u first second there => (second (first there ▸ there)).trans (first there))
    (fun _ _ _ impossible => impossible.elim)
    (fun pid request s reply t inv allowed performed =>
      (exec_onward inv allowed performed).imp id Onward.ca)
    (fun pid result => ends_stable pid result)
    (fun pid s inv => processes_guarded (fun _ => trivial) (.inl trivial) pid s inv) heeding later
  exact between there

end Processes

/-! ## A race -/

namespace Race

/-- Keys that are their own certificates. -/
def toy : Crypto where
  Key := Bool
  Certificate := Bool
  Issuer := Bool
  keyPem := fun key => [if key then 1 else 0]
  certificatePem := fun certificate => [if certificate then 1 else 0]
  SelfSigned := fun key certificate => certificate = key
  readKey := fun bytes => .ok (bytes == [1])
  readCertificate := fun bytes => .ok (bytes == [1])
  certify := fun certificate key => if certificate = key then .ok () else .error "keys differ"
  issuer := fun _ key => .ok key

theorem lawful : toy.Lawful where
  readKey key := by cases key <;> rfl
  readCertificate certificate := by cases certificate <;> rfl
  certify key certificate signs := if_pos signs
  issuer key _ _ := ⟨key, rfl⟩
  keyLength key := by cases key <;> decide
  certificateLength certificate := by cases certificate <;> decide

/-- Whatever a file of `gateway-ca` is asked for. -/
def look {α : Type} (ca : Option Entry) (file : Pem) (other : α) (sees : PemFile → α) :
    Except String α :=
  match ca with
  | none => .error "No such file or directory"
  | some (.other _) => .ok other
  | some (.directory d) =>
      match d.files file with
      | none => .error "No such file or directory"
      | some contents => .ok (sees contents)

def metadataOf : PemFile → Metadata
  | .regular data mode => ⟨.file, mode, data.length⟩
  | .other => ⟨.other, 0, 0⟩

def dataOf : PemFile → Bytes
  | .regular data _ => data
  | .other => []

def vacant : Option Entry → Bool
  | none => true
  | some (.directory d) => (d.files .key).isNone && (d.files .ca).isNone && !d.more
  | some (.other _) => false

/-- A process with this key, and nothing fails that need not. -/
def serve (key : Bool) : (request : Request toy) → State → Reply toy request × State
  | .createStateDir, s => (.ok (), s)
  | .caExists, s => (.ok (Entry.exists s.ca), s)
  | .tempdir pid, s =>
      (.ok s.owners.length,
        (s.putStaging s.owners.length (some ⟨0o700, fun _ => none, false⟩)).draw pid)
  | .setPermissions name, s =>
      match s.staging name with
      | none => (.error "No such file or directory", s)
      | some d => (.ok (), s.putStaging name (some { d with mode := 0o700 }))
  | .generateKey, s => (.ok key, s)
  | .selfSigned key, s => (.ok key, s)
  | .createNew name file, s =>
      match s.staging name with
      | none => (.error "No such file or directory", s)
      | some d =>
          if d.files file = none then
            (.ok (), s.putStaging name (some (d.put file (.regular [] 0o600))))
          else (.error "File exists", s)
  | .writeAll name file bytes, s =>
      match s.staging name with
      | none => (.error "Bad file descriptor", s)
      | some d => (.ok (), s.putStaging name (some (d.put file (.regular bytes 0o600))))
  | .syncAll _ _, s => (.ok (), s)
  | .rename name, s =>
      match s.staging name with
      | none => (.error "No such file or directory", s)
      | some d =>
          if vacant s.ca then (.ok (), { s.putStaging name none with ca := some (.directory d) })
          else (.error "Directory not empty", s)
  | .syncStateDir, s => (.ok (), s)
  | .removeStaging name, s =>
      match s.staging name with
      | none => (.error "No such file or directory", s)
      | some _ => (.ok (), s.putStaging name none)
  | .caMetadata, s =>
      match s.ca with
      | none => (.error "No such file or directory", s)
      | some (.directory d) => (.ok ⟨.directory, d.mode, 0⟩, s)
      | some (.other _) => (.ok ⟨.other, 0, 0⟩, s)
  | .fileMetadata file, s => (look s.ca file ⟨.other, 0, 0⟩ metadataOf, s)
  | .read file, s => (look s.ca file [] dataOf, s)

theorem vacant_iff (ca : Option Entry) : vacant ca = true ↔ Vacant ca := by
  rcases ca with _ | ⟨d⟩ | _
  · simp [vacant, Vacant]
  · have both : (∀ file, d.files file = none) ↔ d.files .key = none ∧ d.files .ca = none :=
      ⟨fun all => ⟨all .key, all .ca⟩, fun two file => by cases file <;> simp [two]⟩
    simp [vacant, Vacant, both]
  · simp [vacant, Vacant]

theorem looked {α : Type} (ca : Option Entry) (file : Pem) (other : α) (sees : PemFile → α)
    (spec : PemFile → α → Prop) (meets : ∀ contents, spec contents (sees contents)) :
    Looked ca file spec (look ca file other sees) := by
  rcases ca with _ | ⟨d⟩ | _
  · exact ⟨_, rfl⟩
  · cases there : d.files file with
    | none =>
        simp only [Looked, look, there]
        exact ⟨_, rfl⟩
    | some contents =>
        simp only [Looked, look, there]
        exact ⟨_, meets contents, rfl⟩
  · trivial

theorem serves (key : Bool) (request : Request toy) (s : State) :
    exec False request s (serve key request s).1 (serve key request s).2 := by
  cases request with
  | createStateDir | syncAll | syncStateDir | caExists => exact .inr ⟨rfl, rfl⟩
  | tempdir pid => exact .inr ⟨_, rfl, rfl⟩
  | generateKey => exact .inr ⟨key, rfl, rfl⟩
  | selfSigned key => exact .inr ⟨key, rfl, rfl, rfl⟩
  | setPermissions name =>
      cases there : s.staging name with
      | none =>
          simp only [serve, there]
          exact .inl ⟨.inr there, ⟨_, rfl⟩, rfl⟩
      | some d =>
          simp only [serve, there]
          exact .inr ⟨d, there, rfl, rfl⟩
  | createNew name file =>
      cases there : s.staging name with
      | none =>
          simp only [serve, there]
          exact .inl ⟨.inr (fun d is => by cases there.symm.trans is), ⟨_, rfl⟩, rfl⟩
      | some d =>
          by_cases absent : d.files file = none
          · simp only [serve, there, if_pos absent]
            exact .inr ⟨d, there, absent, rfl, rfl⟩
          · simp only [serve, there, if_neg absent]
            refine .inl ⟨.inr (fun d' is => ?_), ⟨_, rfl⟩, rfl⟩
            obtain rfl := Option.some.inj (there.symm.trans is)
            exact absent
  | writeAll name file bytes =>
      cases there : s.staging name with
      | none =>
          simp only [serve, there]
          exact .inl ⟨.inr (fun d is => by cases there.symm.trans is), ⟨_, rfl⟩, rfl⟩
      | some d =>
          simp only [serve, there]
          exact .inr ⟨d, bytes, there, rfl, .inl ⟨rfl, rfl⟩⟩
  | rename name =>
      cases there : s.staging name with
      | none =>
          simp only [serve, there]
          exact .inl ⟨.inr (.inl there), ⟨_, rfl⟩, rfl⟩
      | some d =>
          by_cases free : vacant s.ca = true
          · simp only [serve, there, if_pos free]
            exact .inr ⟨d, there, (vacant_iff _).1 free, rfl, rfl⟩
          · simp only [serve, there, if_neg free]
            exact .inl ⟨.inr (.inr fun vacant => free ((vacant_iff _).2 vacant)), ⟨_, rfl⟩, rfl⟩
  | removeStaging name =>
      cases there : s.staging name with
      | none =>
          simp only [serve, there]
          exact .inl rfl
      | some d =>
          simp only [serve, there]
          exact .inr ⟨none, by simp [there], rfl⟩
  | caMetadata =>
      rcases is : s.ca with _ | ⟨d⟩ | _
      · simp only [serve, is]
        exact .inl ⟨.inr is, ⟨_, rfl⟩, rfl⟩
      · simp only [serve, is]
        exact .inr ⟨_, _, is, ⟨rfl, rfl⟩, rfl, rfl⟩
      · simp only [serve, is]
        exact .inr ⟨_, _, is, by simp [Entry.metadata], rfl, rfl⟩
  | fileMetadata file =>
      refine .inr ⟨looked _ _ _ _ _ fun contents => ?_, rfl⟩
      cases contents with
      | regular data mode => exact ⟨rfl, rfl, rfl⟩
      | other => simp [PemFile.metadata, metadataOf]
  | read file =>
      refine .inr ⟨looked _ _ _ _ _ fun contents data mode is => ?_, rfl⟩
      rw [is]
      rfl

def gateways (_ : Nat) : Command := .daemon

def before : Processes toy False :=
  ⟨⟨none, fun _ => none, []⟩, fun _ => none⟩

abbrev main (pid : Nat) := processes toy gateways pid

/-- So many requests of a process, by what is left of it. -/
def goes (m : Processes toy False) (pid : Nat) (key : Bool) (requests : Nat)
    (program : Program (Requests toy) (Except Stop (Option (Bool × Bool)))) : Processes toy False :=
  ⟨(Program.advance (serve key) requests (program, m.state)).2,
    m.put pid (some (Program.advance (serve key) requests (program, m.state)).1)⟩

theorem reaches_goes {m : Processes toy False} {pid : Nat}
    {program : Program (Requests toy) (Except Stop (Option (Bool × Bool)))}
    (turn : m.running pid = some program) (key : Bool) (requests : Nat) :
    Pool.Reaches main m (goes m pid key requests program) :=
  Pool.reaches_leads turn
    (@System.Leads.advance (Requests toy) (@home toy False) _ (serve key) (serves key) requests _)

def started (m : Processes toy False) (pid : Nat) : Processes toy False :=
  ⟨m.state, m.put pid (some (main pid))⟩

/-- Process 1 stands before its rename. -/
def waiting : Processes toy False :=
  goes (started before 1) 1 true 12 (main 1)

/-- Process 2 has overtaken it, and is done. -/
def overtaken : Processes toy False :=
  goes (started waiting 2) 2 false 100 (main 2)

/-- Process 1 goes on. -/
def after : Processes toy False :=
  goes overtaken 1 true 100 (Program.advance (serve true) 12 (main 1, before.state)).1

theorem raced : Pool.Reaches main before after := by
  have first : Pool.Reaches main before (started before 1) := .single (.start 1 rfl)
  have stalled := first.trans (reaches_goes (Pool.put_self _ _ _) true 12)
  have second : Pool.Reaches main before (started waiting 2) := stalled.tail (.start 2 rfl)
  have won := second.trans (reaches_goes (Pool.put_self _ _ _) false 100)
  exact won.trans (reaches_goes rfl true 100)

end Race

/-- **One authority.**  Any number of processes at once, each failing or killed wherever it
stands: `gateway-ca` is as it was before, or it was missing and is one whole directory that an
initializer made; once it is there it never changes; a process that is done finds it to pass all
checks; and all gateways, whenever they started, go on with the same issuer and certificate. -/
theorem identity_agreed (crypto : Crypto) (faulty : Prop) (commands : Nat → Command)
    (start m m' : Processes crypto faulty) (idle : ∀ pid, start.running pid = none)
    (reaches : Pool.Reaches (processes crypto commands) start m)
    (later : Pool.Reaches (processes crypto commands) m m') :
    (m.state.ca = start.state.ca ∨ start.state.ca = none ∧ Published crypto m.state) ∧
      (m.state.ca ≠ none → m'.state.ca = m.state.ca) ∧
      (∀ pid value, m.running pid = some (.done (.ok value)) → Settled crypto value m.state) ∧
      ∀ pid pid' identity identity', m.running pid = some (.done (.ok (some identity))) →
        m'.running pid' = some (.done (.ok (some identity'))) → identity' = identity := by
  have settled : ∀ {m : Processes crypto faulty}, Pool.Reaches (processes crypto commands) start m →
      ∀ pid value, m.running pid = some (.done (.ok value)) → Settled crypto value m.state :=
    fun reaches pid value done =>
      (reaches_ends (fun _ => trivial) (.inl trivial) idle reaches done).2
  refine ⟨(reaches_heeding (fun _ => trivial) (.inl trivial) idle reaches).1,
    reaches_kept idle reaches later, settled reaches, ?_⟩
  intro pid pid' identity identity' done done'
  obtain ⟨d, is, _, carries⟩ := settled reaches pid _ done
  obtain ⟨d', is', _, carries'⟩ := settled (reaches.trans later) pid' _ done'
  have same := reaches_kept idle reaches later (by simp [is])
  obtain rfl := Entry.directory.inj (Option.some.inj (is'.symm.trans (same.trans is)))
  exact carries_unique (carries identity rfl) (carries' identity' rfl)

/-- Process 2 overtakes process 1, which goes on with its identity. -/
theorem identity_agreed_race :
    ∃ identity identity', Race.after.running 1 = some (.done (.ok (some identity))) ∧
      Race.after.running 2 = some (.done (.ok (some identity'))) ∧ identity' = identity ∧
      Settled Race.toy (some identity) Race.after.state := by
  obtain ⟨_, _, settled, agreed⟩ := identity_agreed Race.toy False Race.gateways Race.before Race.after
    Race.after (fun _ => rfl) Race.raced .refl
  have loser : Race.after.running 1 = some (.done (.ok (some (false, false)))) := rfl
  have winner : Race.after.running 2 = some (.done (.ok (some (false, false)))) := rfl
  exact ⟨_, _, loser, winner, agreed 1 2 _ _ loser winner, settled 1 _ loser⟩

/-- **Nobody loses the race.**  Where requests only fail that have to, and `gateway-ca` is missing
or sound to begin with, no `init` and no `load_ca` behind it fails, however many processes create
it at once and whichever are killed. -/
theorem nobody_loses (crypto : Crypto) (lawful : crypto.Lawful) (commands : Nat → Command)
    (start m : Processes crypto False) (idle : ∀ pid, start.running pid = none)
    (before : start.state.ca = none ∨ ∃ e, start.state.ca = some e ∧ Sound crypto e)
    (reaches : Pool.Reaches (processes crypto commands) start m) :
    ∀ pid result, m.running pid = some (.done result) → ∃ value, result = .ok value := by
  intro pid result done
  have ends := reaches_ends (fun faulty => faulty) (.inr ⟨lawful, before⟩) idle reaches done
  cases result with
  | ok value => exact ⟨value, rfl⟩
  | error stop => exact ends.2.1.elim

/-- Process 1 does not lose. -/
theorem nobody_loses_race :
    ∃ result, Race.after.running 1 = some (.done result) ∧ ∃ value, result = .ok value :=
  ⟨_, rfl, nobody_loses Race.toy Race.lawful Race.gateways Race.before Race.after (fun _ => rfl)
    (.inl rfl) Race.raced 1 (.ok (some (false, false))) rfl⟩

end Luhmen.Host.GatewayIdentity
