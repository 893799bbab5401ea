import Dendri.Properties.Sessions

/-!
What `POST /auth/request` can make the server mail. Anyone can make the request, for any
address, so that it must not be of use to flood a third party.

* `mailsOf`: the mails that a request causes, with their time;
* `Slots`: the slots in Redis cover the mails without an account;
* `ProperMail`: a mail goes to a plausible address, and what it says is fixed by the server. It
  has a link just when the address has an account, with a token signed for that account;
* `mails_limited`: in every run all mails are proper, and those without an account to one
  address, up to the case of its letters, are ten minutes apart.
-/

namespace Dendri

open Transition

variable {jwt : Hs256} {cfg : MailConfig} {env : ApiEnv} {s : ApiState}

/-- The mails that a request causes, with their time in milliseconds. -/
def mailsOf (jwt : Hs256) (cfg : MailConfig) (env : ApiEnv) (s : ApiState) :
    ApiRequest → List (ℕ × Mail)
  | .requestMagicLink address =>
      ((CustomerApi.requestMagicLink jwt cfg env s address).2.map fun mail =>
        (env.now, mail)).toList
  | _ => []

/-- The requests one after the other, with a record of the mails. -/
def mailStep (jwt : Hs256) (cfg : MailConfig) :
    ApiState × List (ℕ × Mail) → ApiLabel → Option (ApiState × List (ℕ × Mail)) :=
  withRecord (fun s l => some (handle jwt cfg l.env s l.request).1)
    fun s l => mailsOf jwt cfg l.env s l.request

/-- The mail says that there is no account. -/
def Mail.IsNoAccount (mail : Mail) : Prop := mail.subject = "Sign in to Dendri — no account found"

/-- The address in lower case. -/
def Mail.lowerAddress (mail : Mail) : List Char := mail.toAddress.toList.map toAsciiLowercase

/-- Two mails without an account to one address are ten minutes apart. -/
def TenMinutesApart (p q : ℕ × Mail) : Prop :=
  p.2.IsNoAccount → q.2.IsNoAccount → p.2.lowerAddress = q.2.lowerAddress → p.1 + 600000 ≤ q.1

/-- What is mailed by a request that finds the state `s`: to an address with an account the
magic link that is signed for the account at that time, and to another one that there is no
account. -/
def ProperMail (jwt : Hs256) (cfg : MailConfig) (env : ApiEnv) (s : ApiState) (mail : Mail) :
    Prop :=
  plausibleEmail mail.toAddress = true ∧
    ((∃ secret id token, signingSecret s = some secret ∧
        s.redis.getTenantIdByEmail mail.toAddress = some id ∧
        signToken jwt env secret id "magic" magicTtlSecs = some token ∧
        mail = linkMail cfg mail.toAddress token) ∨
      (s.redis.getTenantIdByEmail mail.toAddress = none ∧
        mail = noAccountMail cfg mail.toAddress))

/-- The slot of a mail without an account is taken for ten minutes. -/
def Slots (w : ApiState × List (ℕ × Mail)) : Prop :=
  ∀ p ∈ w.2, p.2.IsNoAccount → ∃ free,
    w.1.noAccount.lookup (noAccountCooldownKey p.2.toAddress) = some free ∧ p.1 + 600000 ≤ free

/-- The mails of a request are proper. -/
lemma proper_of_mem_mailsOf {request : ApiRequest} {p : ℕ × Mail}
    (h : p ∈ mailsOf jwt cfg env s request) : p.1 = env.now ∧ ProperMail jwt cfg env s p.2 := by
  cases request with
  | requestMagicLink address =>
      obtain ⟨mail, hmail, rfl⟩ := Option.map_eq_some_iff.mp (Option.mem_toList.mp h)
      refine ⟨rfl, ?_⟩
      rcases requestMagicLink_cases jwt cfg env s address with
        ⟨secret, id, token, hproper, hsecret, hid, htoken, heq⟩ | heq | ⟨hproper, hnone, heq⟩
      · rw [heq, Option.some.injEq] at hmail
        rw [← hmail]
        exact ⟨hproper, Or.inl ⟨secret, id, token, hsecret, hid, htoken, rfl⟩⟩
      · rw [heq] at hmail
        exact absurd hmail (by simp)
      · rw [heq] at hmail
        dsimp only at hmail
        split_ifs at hmail
        rw [← Option.some.inj hmail]
        exact ⟨hproper, Or.inr ⟨hnone, rfl⟩⟩
  | _ => exact absurd h (by simp [mailsOf])

/-- The slot of an address is taken. -/
def ApiState.takeSlot (s : ApiState) (env : ApiEnv) (email : String) : ApiState :=
  { s with noAccount := s.noAccount.insert (noAccountCooldownKey email) (env.now + 600000) }

/-- A slot that is acquired was free, and is taken for ten minutes. -/
lemma acquireNoAccountSlot_cases (env : ApiEnv) (s : ApiState) (email : String) :
    acquireNoAccountSlot env s email = (s, false) ∨
      ((∀ free, s.noAccount.lookup (noAccountCooldownKey email) = some free → free ≤ env.now) ∧
        acquireNoAccountSlot env s email = (s.takeSlot env email, true)) := by
  rw [acquireNoAccountSlot]
  split_ifs with hfree
  · right
    rw [Bool.and_eq_true] at hfree
    refine ⟨fun free hlookup => ?_, rfl⟩
    have hall := hfree.2
    rw [hlookup, Option.all_some, decide_eq_true_eq] at hall
    exact hall
  · exact Or.inl rfl

lemma cooldownKey_congr {mail mail' : Mail} (h : mail.lowerAddress = mail'.lowerAddress) :
    noAccountCooldownKey mail.toAddress = noAccountCooldownKey mail'.toAddress := by
  rw [noAccountCooldownKey, noAccountCooldownKey]
  exact congrArg (fun cs => "auth:no-account:" ++ String.ofList cs) h

/-- The mail of a request that gets a slot comes ten minutes after those for the same address,
and its own slot is taken. -/
lemma slots_of_acquired {log : List (ℕ × Mail)} {mail : Mail} (hw : Slots (s, log))
    (hfree : ∀ free, s.noAccount.lookup (noAccountCooldownKey mail.toAddress) = some free →
      free ≤ env.now) :
    Slots (s.takeSlot env mail.toAddress, log ++ [(env.now, mail)]) ∧
      ∀ p ∈ log, TenMinutesApart p (env.now, mail) := by
  have hearlier : ∀ p ∈ log, p.2.IsNoAccount →
      noAccountCooldownKey p.2.toAddress = noAccountCooldownKey mail.toAddress →
      p.1 + 600000 ≤ env.now := by
    intro p hp hno hkey
    obtain ⟨free, hlookup, hle⟩ := hw p hp hno
    rw [show (s, log).1 = s from rfl, hkey] at hlookup
    have hnow := hfree free hlookup
    omega
  constructor
  · intro p hp hno
    show ∃ free, (s.noAccount.insert _ _).lookup _ = some free ∧ _
    rw [FinMap.lookup_insert_ite]
    rcases List.mem_append.mp hp with hold | hnew
    · split_ifs with hkey
      · have hle := hearlier p hold hno hkey
        exact ⟨env.now + 600000, rfl, by omega⟩
      · exact hw p hold hno
    · rw [List.mem_singleton.mp hnew, if_pos rfl]
      exact ⟨env.now + 600000, rfl, le_rfl⟩
  · intro p hp hno _ haddress
    exact hearlier p hp hno (cooldownKey_congr haddress)

/-- A request keeps the slots, and its mails keep their distance. -/
lemma slots_of_step {w w' : ApiState × List (ℕ × Mail)} {l : ApiLabel} (hw : Slots w)
    (hapart : w.2.Pairwise TenMinutesApart) (hstep : mailStep jwt cfg w l = some w') :
    Slots w' ∧ w'.2.Pairwise TenMinutesApart := by
  obtain ⟨s, log⟩ := w
  obtain ⟨env, request⟩ := l
  rw [mailStep, withRecord, Option.map_some, Option.some.injEq] at hstep
  subst hstep
  dsimp only at hapart ⊢
  by_cases hemail : ∃ address, request = .requestMagicLink address
  · obtain ⟨address, rfl⟩ := hemail
    rw [show handle jwt cfg env s (.requestMagicLink address) =
      ((CustomerApi.requestMagicLink jwt cfg env s address).1, CustomerApi.generic) from rfl, mailsOf]
    dsimp only
    rcases requestMagicLink_cases jwt cfg env s address with
      ⟨_, _, token, -, -, -, -, heq⟩ | heq | ⟨-, -, heq⟩
    · -- a mail with a link takes no slot
      have hlink : ¬(linkMail cfg (trim address) token).IsNoAccount := by
        show ¬("Sign in to Dendri" = "Sign in to Dendri — no account found")
        decide
      rw [heq, Option.map_some, Option.toList_some]
      refine ⟨fun p hp hno => ?_, List.pairwise_append.mpr
        ⟨hapart, List.pairwise_singleton _ _, fun p _ q hq _ hno => ?_⟩⟩
      · rcases List.mem_append.mp hp with hold | hnew
        · exact hw p hold hno
        · rw [List.mem_singleton.mp hnew] at hno
          exact absurd hno hlink
      · rw [List.mem_singleton.mp hq] at hno
        exact absurd hno hlink
    · rw [heq, Option.map_none, Option.toList_none, List.append_nil]
      exact ⟨hw, hapart⟩
    · rw [heq]
      dsimp only
      rcases acquireNoAccountSlot_cases env s (trim address) with hslot | ⟨hfree, hslot⟩
      · rw [hslot, if_neg (by simp), Option.map_none, Option.toList_none, List.append_nil]
        exact ⟨hw, hapart⟩
      · rw [hslot, if_pos rfl, Option.map_some, Option.toList_some]
        obtain ⟨hslots, hearlier⟩ :=
          @slots_of_acquired env _ _ (noAccountMail cfg (trim address)) hw hfree
        refine ⟨hslots, List.pairwise_append.mpr ⟨hapart, List.pairwise_singleton _ _, ?_⟩⟩
        intro p hp q hq
        rw [List.mem_singleton.mp hq]
        exact hearlier p hp
  · have hno : ∀ address, request ≠ .requestMagicLink address := fun address h => hemail ⟨address, h⟩
    have hnil : mailsOf jwt cfg env s request = [] := by
      cases request with
      | requestMagicLink address => exact absurd rfl (hno address)
      | _ => rfl
    have hkept : (handle jwt cfg env s request).1.noAccount = s.noAccount :=
      handle_keeps ApiState.noAccount (fun _ _ _ => rfl) hno
    rw [hnil, List.append_nil]
    refine ⟨fun p hp hmail => ?_, hapart⟩
    rw [hkept]
    exact hw p hp hmail

/-- In every run of requests, from whatever state, all mails are proper, and the mails without
an account to one address are ten minutes apart. -/
theorem mails_limited (jwt : Hs256) (cfg : MailConfig) (s : ApiState) (ls : List ApiLabel) :
    AllSteps (mailStep jwt cfg)
      (fun w l w' => (∀ p ∈ mailsOf jwt cfg l.env w.1 l.request, ProperMail jwt cfg l.env w.1 p.2) ∧
        w'.2.Pairwise TenMinutesApart) (s, []) ls := by
  refine AllSteps.of_invariant (I := fun w => Slots w ∧ w.2.Pairwise TenMinutesApart)
    (P := fun _ _ _ => True) (fun w l w' hw hstep _ => ?_) ⟨?_, List.Pairwise.nil⟩
    (AllSteps.of_mem _ fun _ _ _ _ _ => trivial)
  · have hkeeps := slots_of_step hw.1 hw.2 hstep
    exact ⟨hkeeps, fun p hp => (proper_of_mem_mailsOf hp).2, hkeeps.2⟩
  · exact fun p hp => absurd hp (by simp)

end Dendri
