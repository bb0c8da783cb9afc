import PromptRunner.Proofs.Web.Query
import PromptRunner.Provider.Chat

/-!
# What a result tells of the key

Two providers that differ in the key alone are asked the same, and the same comes of it. Where the
key goes along in a header, their results are the same: an address, a status and a body make up
every result, and the key is in none of them. Where it goes along in the address, the results are
the same unless the address is shown, which it is if nothing answers or if it cannot be sent to.
Then the failure tells the key.

What an address is read as, and whether it can be sent to, is up to the client, and nothing here
depends on it: the client is any client. All that is used is how a key is put into an address and
how an address is written.
-/

namespace PromptRunner.Provider

open PromptRunner.Text PromptRunner.Web

/-- A key as vendors hand them out: not empty, and of visible characters of the old code. -/
structure IsKey (key : String) : Prop where
  filled : key.isEmpty = false
  visible : key.toList.all (fun c => 0x20 ≤ c.toNat && c.toNat < 0x7F) = true

/-- A provider with another key. -/
def keyed (p : Provider) (key : String) : Provider := { p with key := some key }

/-- The keys are in the address, and it is shown: nothing answers, or it cannot be sent to with one
of the keys. -/
def TellsKey (p : Provider) (client : Client) (q : Query) (outcome : WebOutcome)
    (key other : String) : Prop :=
  p.vendor = .gemini ∧ ∃ url, client.parse? (p.addressFor q) = some url ∧ url.hasHost = true ∧
    (outcome = .unreachable ∨ client.sends (url.addQuery "key" key) = false ∨
      client.sends (url.addQuery "key" other) = false)

variable {p : Provider} {client : Client} {q : Query} {outcome : WebOutcome} {key other : String}
  {url : Url}

theorem of_key (hkey : IsKey key) (vendor : Vendor) (address : Option String) (model : String) :
    of vendor ⟨some key, address⟩ model = (of vendor ⟨none, address⟩ model).keyed key := by
  simp [of, keyed, hkey.filled]

/-! ## One run -/

theorem isHeaderValue_append (a b : String) :
    isHeaderValue (a ++ b) = (isHeaderValue a && isHeaderValue b) := by
  rw [isHeaderValue, String.toList_append, List.all_append]
  rfl

theorem IsKey.isHeaderValue (hkey : IsKey key) : isHeaderValue key = true := by
  refine List.all_eq_true.2 fun c hc => ?_
  have hvisible := List.all_eq_true.1 hkey.visible c hc
  simp only [Bool.and_eq_true, decide_eq_true_eq, Bool.or_eq_true] at hvisible ⊢
  exact .inr ⟨hvisible.1, by omega⟩

/-- A key can stand in a header. -/
theorem headersFor_key (p : Provider) (hkey : IsKey key) :
    (p.headersFor key).any (fun (_, value) => !Web.isHeaderValue value) = false := by
  have hvalue := hkey.isHeaderValue
  have hbearer : Web.isHeaderValue ("Bearer " ++ key) = true := by
    rw [isHeaderValue_append, hvalue]
    decide
  have hjson : Web.isHeaderValue "application/json" = true := by decide
  have hversion : Web.isHeaderValue "2023-06-01" = true := by decide
  rw [headersFor]
  cases p.vendor <;> simp [hvalue, hbearer, hjson, hversion]

/-- The question that goes out with a key. -/
def question (p : Provider) (q : Query) (key : String) (url : Url) : WebRequest :=
  ⟨p.withKey key url, p.headersFor key, (p.bodyFor q).compact⟩

/-- What comes of asking a host with a key. The key is in the question, and in the address of a
question that cannot be sent. -/
def asked (p : Provider) (client : Client) (q : Query) (outcome : WebOutcome) (key : String)
    (url : Url) : Except Failure Completion :=
  if client.sends (p.withKey key url) then p.conclude (p.question q key url) outcome
  else .error (p.exchangeFailure (schemeError (p.withKey key url)))

/-- What comes of asking with a key. -/
theorem chat_keyed (hkey : IsKey key) :
    (p.keyed key).chatBy client (fun _ => outcome) q =
      match client.parse? (p.addressFor q) with
      | none => .error (p.exchangeFailure builderError)
      | some url =>
        if url.hasHost then p.asked client q outcome key url
        else .error (p.exchangeFailure (schemeError url)) := by
  have hheaders : (({ p with key := some key } : Provider).headersFor key).any
      (fun (_, value) => !Web.isHeaderValue value) = false := headersFor_key _ hkey
  have haddress : ({ p with key := some key } : Provider).addressFor q = p.addressFor q := rfl
  have hwith : ({ p with key := some key } : Provider).withKey key = p.withKey key := rfl
  simp only [chatBy, prepareBy, keyed, Web.prepare, haddress, hheaders, hwith]
  cases client.parse? (p.addressFor q) with
  | none => rfl
  | some url =>
    cases hhost : url.hasHost with
    | false =>
      simp only [hhost, Bool.not_false, if_true]
      rfl
    | true =>
      simp only [hhost, Bool.not_true, Bool.false_eq_true, if_false, if_true, asked]
      cases client.sends (p.withKey key url) <;> rfl

/-! ## Two runs -/

/-- Only the address of a question shows in what comes of it, and only if nothing answers. -/
theorem conclude_congr {r s : WebRequest} (h : outcome = .unreachable → r.url = s.url) :
    p.conclude r outcome = p.conclude s outcome := by
  cases outcome with
  | unreachable => rw [conclude, conclude, h rfl]
  | answered status body => rfl

theorem withKey_of_header (hvendor : p.vendor ≠ .gemini) : p.withKey key url = url := by
  rw [withKey]
  split
  · next h => exact absurd h hvendor
  · rfl

theorem withKey_of_address (hvendor : p.vendor = .gemini) :
    p.withKey key url = url.addQuery "key" key := by
  rw [withKey, hvendor]

theorem text_between_injective {front back : String} {a b : List Char}
    (h : front ++ String.ofList a ++ back = front ++ String.ofList b ++ back) : a = b := by
  simpa using congrArg String.toList h

theorem exchangeFailure_injective {a b : String}
    (h : p.exchangeFailure a = p.exchangeFailure b) : a = b := by
  have htext := congrArg String.toList (Failure.provider.inj h)
  exact String.toList_injective (by simpa using htext)

theorem sendError_ne_schemeError (a b : Url) : sendError a ≠ schemeError b := by
  unfold sendError schemeError
  intro h
  have htext := congrArg String.toList h
  simp at htext

/-- An exchange that failed is told in the vendor's name. -/
theorem start_of_exchangeFailure {a text : String} (h : .provider a = p.exchangeFailure text) :
    a.toList = p.vendor.label.toList ++ (" request failed: " ++ text).toList := by
  have htext := congrArg String.toList (Failure.provider.inj h)
  simpa using htext

theorem emptyAnswer_ne (p : Provider) (text : String) :
    p.emptyAnswer ≠ p.exchangeFailure text := by
  intro h
  rw [emptyAnswer] at h
  cases hvendor : p.vendor <;> rw [hvendor] at h <;> have htext := start_of_exchangeFailure h <;>
    simp [hvendor, Vendor.label, Vendor.name] at htext

theorem refusal_ne (p : Provider) (status : Nat) (message text : String) :
    refusal status message ≠ p.exchangeFailure text := by
  intro h
  unfold refusal at h
  dsimp only at h
  split at h
  · cases h
  · split at h
    · cases h
    · have htext := start_of_exchangeFailure h
      cases hvendor : p.vendor <;> simp [hvendor, Vendor.label] at htext

/-- No answer reads as an exchange that failed. -/
theorem conclude_answered_ne (p : Provider) (r : WebRequest) (status : Nat) (body : Option Bytes)
    (text : String) : p.conclude r (.answered status body) ≠ .error (p.exchangeFailure text) := by
  intro h
  rw [conclude] at h
  split at h
  · split at h
    · have htext := start_of_exchangeFailure (Except.error.inj h)
      cases hvendor : p.vendor <;> simp [hvendor, Vendor.label] at htext
    · exact emptyAnswer_ne p text (Except.error.inj h)
    · cases h
  · exact refusal_ne p status _ text (Except.error.inj h)

/-- What comes of a question is not what comes of one that cannot be sent. -/
theorem conclude_ne_unsent (r : WebRequest) (url : Url) :
    p.conclude r outcome ≠ .error (p.exchangeFailure (schemeError url)) := by
  cases outcome with
  | unreachable =>
    intro h
    exact sendError_ne_schemeError r.url url (exchangeFailure_injective (Except.error.inj h))
  | answered status body => exact conclude_answered_ne p r status body _

/-- Where the address with the key is shown, results under different keys are different. -/
theorem asked_ne (hvendor : p.vendor = .gemini) (hne : key ≠ other)
    (hshown : outcome = .unreachable ∨ client.sends (url.addQuery "key" key) = false ∨
      client.sends (url.addQuery "key" other) = false) :
    p.asked client q outcome key url ≠ p.asked client q outcome other url := by
  rw [asked, asked, withKey_of_address hvendor, withKey_of_address hvendor]
  intro hsame
  by_cases hkey : client.sends (url.addQuery "key" key) = true
  · by_cases hother : client.sends (url.addQuery "key" other) = true
    · -- both are sent, so that nothing answers
      obtain rfl : outcome = .unreachable := by simpa [hkey, hother] using hshown
      rw [if_pos hkey, if_pos hother] at hsame
      have htext := exchangeFailure_injective (Except.error.inj hsame)
      rw [question, question, withKey_of_address hvendor, withKey_of_address hvendor] at htext
      exact hne (addQuery_text_injective (text_between_injective htext))
    · rw [if_pos hkey, if_neg hother] at hsame
      exact conclude_ne_unsent _ _ hsame
  · rw [if_neg hkey] at hsame
    by_cases hother : client.sends (url.addQuery "key" other) = true
    · rw [if_pos hother] at hsame
      exact conclude_ne_unsent _ _ hsame.symm
    · rw [if_neg hother] at hsame
      have htext := exchangeFailure_injective (Except.error.inj hsame)
      exact hne (addQuery_text_injective (text_between_injective htext))

theorem asked_eq (h : p.vendor = .gemini → outcome ≠ .unreachable ∧
      client.sends (url.addQuery "key" key) = true ∧
      client.sends (url.addQuery "key" other) = true) :
    p.asked client q outcome key url = p.asked client q outcome other url := by
  rw [asked, asked]
  by_cases hvendor : p.vendor = .gemini
  · obtain ⟨hanswered, hkey, hother⟩ := h hvendor
    rw [withKey_of_address hvendor, withKey_of_address hvendor, if_pos hkey, if_pos hother]
    exact conclude_congr fun hout => absurd hout hanswered
  · have hurl : (p.question q key url).url = (p.question q other url).url := by
      rw [question, question, withKey_of_header hvendor, withKey_of_header hvendor]
    rw [withKey_of_header hvendor, withKey_of_header hvendor, conclude_congr fun _ => hurl]

/-- Whatever the client makes of the address, and whatever comes of the question: the result is the
same for any two keys exactly when the address does not both hold the key and show in the result. -/
theorem result_same_for_keys_iff (client : Client) (vendor : Vendor) (address : Option String)
    (model : String) (q : Query) (outcome : WebOutcome) {key other : String} (hkey : IsKey key)
    (hother : IsKey other) (hne : key ≠ other) :
    (of vendor ⟨some key, address⟩ model).chatBy client (fun _ => outcome) q =
        (of vendor ⟨some other, address⟩ model).chatBy client (fun _ => outcome) q ↔
      ¬ (of vendor ⟨none, address⟩ model).TellsKey client q outcome key other := by
  rw [of_key hkey, of_key hother, chat_keyed hkey, chat_keyed hother]
  generalize of vendor ⟨none, address⟩ model = p
  constructor
  · rintro hsame ⟨hvendor, url, haddress, hhost, hshown⟩
    simp only [haddress, hhost, if_true] at hsame
    exact asked_ne hvendor hne hshown hsame
  · intro htells
    cases haddress : client.parse? (p.addressFor q) with
    | none => rfl
    | some url =>
      by_cases hhost : url.hasHost = true
      · simp only [hhost, if_true]
        refine asked_eq fun hvendor => ?_
        have hhidden := fun hshown => htells ⟨hvendor, url, haddress, hhost, hshown⟩
        simpa using hhidden
      · simp only [hhost, Bool.false_eq_true, if_false]

/-- A question with nothing to say. -/
def silence : Query := ⟨[], none, ⟨none, none⟩⟩

theorem isKey_k1 : IsKey "k1" := ⟨by decide, by decide⟩

theorem isKey_k2 : IsKey "k2" := ⟨by decide, by decide⟩

/-- The key is in the address, but a refusal does not show it. -/
theorem refusal_same_for_keys :
    IsKey "k1" ∧ IsKey "k2" ∧ "k1" ≠ "k2" ∧
      (of .gemini ⟨some "k1", none⟩ "m").chat (fun _ => .answered 403 (some [])) silence =
        (of .gemini ⟨some "k2", none⟩ "m").chat (fun _ => .answered 403 (some [])) silence := by
  have hne : "k1" ≠ "k2" := by decide
  refine ⟨isKey_k1, isKey_k2, hne, ?_⟩
  refine (result_same_for_keys_iff .standard .gemini none "m" silence (.answered 403 (some []))
    isKey_k1 isKey_k2 hne).2 ?_
  rintro ⟨-, url, haddress, -, hshown⟩
  have hsent : (Url.parse? ((of .gemini ⟨none, none⟩ "m").addressFor silence)).all (fun url =>
      (url.addQuery "key" "k1").isSendable && (url.addQuery "key" "k2").isSendable) = true := by
    decide
  have hparsed : Url.parse? ((of .gemini ⟨none, none⟩ "m").addressFor silence) = some url :=
    haddress
  rw [hparsed, Option.all_some, Bool.and_eq_true] at hsent
  rcases hshown with h | h | h
  · cases h
  · exact absurd (hsent.1.symm.trans h) (by decide)
  · exact absurd (hsent.2.symm.trans h) (by decide)

/-- Where nothing answers, the failure shows the address and the key in it. -/
theorem failed_send_tells_key :
    IsKey "k1" ∧ IsKey "k2" ∧
      (of .gemini ⟨some "k1", some "http://127.0.0.1:9"⟩ "m").chat (fun _ => .unreachable) silence =
        .error (.provider ("Gemini request failed: error sending request for url " ++
          "(http://127.0.0.1:9/models/m:generateContent?key=k1)")) ∧
      (of .gemini ⟨some "k1", some "http://127.0.0.1:9"⟩ "m").chat (fun _ => .unreachable) silence ≠
        (of .gemini ⟨some "k2", some "http://127.0.0.1:9"⟩ "m").chat (fun _ => .unreachable)
          silence := by
  refine ⟨isKey_k1, isKey_k2, ?_, ?_⟩ <;> decide

end PromptRunner.Provider
