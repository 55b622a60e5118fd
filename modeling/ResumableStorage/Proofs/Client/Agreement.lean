/-
  ResumableStorage/Proofs/Client/Agreement.lean
  =============================================
  **Runs that agree** — two runs, each against a store of its own, where the stores are
  alike in a region.  The runs agree when they end in the same way, leave the stores alike,
  and change nothing outside of the region.

  Agreement is kept under sequencing and under the handling of errors, and it holds of
  every function of the client that is about keys of the region.  The runs need not send
  the same requests: identifiers of uploads may differ, as long as they are paired.
-/
import ResumableStorage.Proofs.Client.Decoding
import ResumableStorage.Proofs.Client.Requests
import ResumableStorage.Proofs.Store.Regions

namespace ResumableStorage

/-! ## 1. Contexts -/

namespace Context

variable {region : Region} {sharp : Prop} {c d c' d' c'' d'' : Context (Disturbed Store)}

/-- Nothing is disturbed in either context, the stores are alike in the region, and the pools lend
buffers of one size. -/
structure Alike (region : Region) (sharp : Prop) (c d : Context (Disturbed Store)) : Prop where
  stores : c.store.Alike region sharp d.store
  left : c.service.IsCalm
  right : d.service.IsCalm
  capacity : c.pool.capacity = d.pool.capacity

/-- The identifiers of the uploads of the region that stand for each other. -/
def pairs (region : Region) (c d : Context (Disturbed Store)) : List (String × String) :=
  Store.pairing region c.store d.store

/-- Both contexts have gone on, and are alike still. -/
structure Together (region : Region) (sharp : Prop) (c d c' d' : Context (Disturbed Store)) :
    Prop where
  stores : Store.Together region sharp c.store d.store c'.store d'.store
  left : c.Leads c'
  right : d.Leads d'

theorem Alike.together (h : c.Alike region sharp d) : Together region sharp c d c d :=
  ⟨h.stores.together, .refl h.left.failsOnly, .refl h.right.failsOnly⟩

theorem Together.trans (h : Together region sharp c d c' d')
    (h' : Together region sharp c' d' c'' d'') : Together region sharp c d c'' d'' :=
  ⟨h.stores.trans h'.stores, h.left.trans h'.left, h.right.trans h'.right⟩

theorem Together.alike (h : Together region sharp c d c' d') (hcd : c.Alike region sharp d) :
    c'.Alike region sharp d' :=
  ⟨h.stores.alike, h.left.calm hcd.left, h.right.calm hcd.right,
    h.left.capacity.trans (hcd.capacity.trans h.right.capacity.symm)⟩

/-- Matching requests get the same answer, and the stores go on together. -/
theorem Alike.asked (h : c.Alike region sharp d) {r q : Request}
    (hmatch : r.Matches region (c.pairs region d) q) :
    Together region sharp c d (c.asked r) (d.asked q) ∧
      (c.exchange r).answer = (d.exchange q).answer := by
  have hleft : c.Leads (c.asked r) :=
    ⟨Disturbed.Within.answer h.left.failsOnly r, fun hcalm => hcalm.answer r, rfl⟩
  have hright : d.Leads (d.asked q) :=
    ⟨Disturbed.Within.answer h.right.failsOnly q, fun hcalm => hcalm.answer q, rfl⟩
  cases h.stores.sameEffect hmatch with
  | refused hrefused hrefused' =>
    obtain ⟨hanswer, hstore⟩ := h.left.answer_refused hrefused
    obtain ⟨hanswer', hstore'⟩ := h.right.answer_refused hrefused'
    refine ⟨⟨?_, hleft, hright⟩, hanswer.trans hanswer'.symm⟩
    change Store.Together region sharp c.store d.store (Service.answer r c.service).2.service
      (Service.answer q d.service).2.service
    rw [hstore, hstore']
    exact h.stores.together
  | granted hgranted hgranted' htogether =>
    obtain ⟨hanswer, hstore⟩ := h.left.answer_granted hgranted
    obtain ⟨hanswer', hstore'⟩ := h.right.answer_granted hgranted'
    refine ⟨⟨?_, hleft, hright⟩, hanswer.trans hanswer'.symm⟩
    change Store.Together region sharp c.store d.store (Service.answer r c.service).2.service
      (Service.answer q d.service).2.service
    rw [hstore, hstore']
    exact htogether

theorem Together.pairs_subset (h : Together region sharp c d c' d') :
    c.pairs region d ⊆ c'.pairs region d' :=
  h.stores.pairs.subset

end Context

/-! ## 2. Agreement -/

/-- Both results are errors, and the same, or both are values that are related. -/
inductive Ends {α β : Type} (Q : α → β → Prop) : Except Error α → Except Error β → Prop
  | returned {a : α} {b : β} (h : Q a b) : Ends Q (.ok a) (.ok b)
  | failed (e : Error) : Ends Q (.error e) (.error e)

theorem Ends.eq {α : Type} {result result' : Except Error α}
    (h : Ends (fun a b => a = b) result result') : result = result' := by
  cases h with
  | returned h => rw [h]
  | failed e => rfl

theorem Ends.same {α : Type} (result : Except Error α) : Ends (fun a b => a = b) result result := by
  rcases result with e | a
  · exact .failed e
  · exact .returned rfl

/-- Values that are related under identifiers that are paired. -/
abbrev Related (α β : Type) := List (String × String) → α → β → Prop

/-- Values that are equal. -/
def Related.equal {α : Type} : Related α α := fun _ a b => a = b

namespace Run

variable {α β γ δ : Type} {region : Region} {sharp : Prop} {pairs pairs' : List (String × String)}

/-- The runs agree from these contexts on: their values are related by `Q`, under all identifiers
that are paired then. -/
def AgreeAt (region : Region) (sharp : Prop) (Q : Related α β) (x : Run (Disturbed Store) α)
    (y : Run (Disturbed Store) β) (c d : Context (Disturbed Store)) : Prop :=
  Context.Together region sharp c d (x.execute c).2 (y.execute d).2 ∧
    Ends (Q ((x.execute c).2.pairs region (y.execute d).2)) (x.execute c).1 (y.execute d).1

/-- The runs agree from all contexts that are alike and in which these identifiers are paired. -/
def Agree (region : Region) (sharp : Prop) (pairs : List (String × String)) (Q : Related α β)
    (x : Run (Disturbed Store) α) (y : Run (Disturbed Store) β) : Prop :=
  ∀ c d : Context (Disturbed Store), c.Alike region sharp d → pairs ⊆ c.pairs region d →
    AgreeAt region sharp Q x y c d

variable {Q : Related α β} {Q' : Related γ δ} {x : Run (Disturbed Store) α}
  {y : Run (Disturbed Store) β}

theorem Agree.of_subset (h : Agree region sharp pairs Q x y) (hsub : pairs ⊆ pairs') :
    Agree region sharp pairs' Q x y :=
  fun c d hcd hpairs => h c d hcd fun _ hpair => hpairs (hsub hpair)

theorem agree_pure {a : α} {b : β} (h : ∀ pairs', pairs ⊆ pairs' → Q pairs' a b) :
    Agree region sharp pairs Q (pure a) (pure b) :=
  fun _ _ hcd hpairs => ⟨hcd.together, .returned (h _ hpairs)⟩

theorem agree_throw (e : Error) : Agree region sharp pairs Q (throw e) (throw e) :=
  fun _ _ hcd _ => ⟨hcd.together, .failed e⟩

theorem agree_decoded (a : Except Malformed α) :
    Agree region sharp pairs .equal (decoded a) (decoded a) := by
  intro c d hcd hpairs
  rw [AgreeAt, execute_decoded, execute_decoded]
  exact ⟨hcd.together, .same _⟩

/-- What is put on record for others to read does not matter. -/
theorem agree_records {x y : Run (Disturbed Store) Unit}
    (hx : ∀ c, ∃ trace notices meters, x.execute c =
      (.ok (), { c with trace := trace, notices := notices, meters := meters }))
    (hy : ∀ c, ∃ trace notices meters, y.execute c =
      (.ok (), { c with trace := trace, notices := notices, meters := meters })) :
    Agree region sharp pairs .equal x y := by
  intro c d hcd hpairs
  obtain ⟨trace, notices, meters, hc⟩ := hx c
  obtain ⟨trace', notices', meters', hd⟩ := hy d
  rw [AgreeAt, hc, hd]
  exact ⟨⟨hcd.stores.together, ⟨hcd.left.failsOnly, id, rfl⟩, ⟨hcd.right.failsOnly, id, rfl⟩⟩,
    .returned rfl⟩

theorem agree_report (n n' : Notice) : Agree region sharp pairs .equal (report n) (report n') :=
  agree_records (fun c => ⟨c.trace, _, c.meters, rfl⟩) fun d => ⟨d.trace, _, d.meters, rfl⟩

theorem agree_count (f g : Meters → Meters) :
    Agree region sharp pairs .equal (count f) (count g) :=
  agree_records (fun c => ⟨c.trace, c.notices, _, rfl⟩) fun d => ⟨d.trace, d.notices, _, rfl⟩

theorem agree_released :
    Agree region sharp pairs .equal (record .released) (record .released) :=
  agree_records (fun c => ⟨_, c.notices, c.meters, rfl⟩) fun d => ⟨_, d.notices, d.meters, rfl⟩

theorem AgreeAt.bind {c d : Context (Disturbed Store)} {f : α → Run (Disturbed Store) γ}
    {g : β → Run (Disturbed Store) δ} (hcd : c.Alike region sharp d)
    (hx : AgreeAt region sharp Q x y c d)
    (hf : ∀ pairs' a b, c.pairs region d ⊆ pairs' → Q pairs' a b →
      Agree region sharp pairs' Q' (f a) (g b)) :
    AgreeAt region sharp Q' (x >>= f) (y >>= g) c d := by
  obtain ⟨htogether, hends⟩ := hx
  rw [AgreeAt, execute_bind, execute_bind]
  rcases hrun : x.execute c with ⟨result, c₁⟩
  rcases hrun' : y.execute d with ⟨result', d₁⟩
  rw [hrun, hrun'] at htogether hends
  cases hends with
  | @returned a b hab =>
    obtain ⟨htogether', hends'⟩ :=
      hf _ a b htogether.pairs_subset hab c₁ d₁ (htogether.alike hcd) fun _ h => h
    exact ⟨htogether.trans htogether', hends'⟩
  | failed e => exact ⟨htogether, .failed e⟩

theorem Agree.bind {f : α → Run (Disturbed Store) γ} {g : β → Run (Disturbed Store) δ}
    (hx : Agree region sharp pairs Q x y)
    (hf : ∀ pairs' a b, pairs ⊆ pairs' → Q pairs' a b → Agree region sharp pairs' Q' (f a) (g b)) :
    Agree region sharp pairs Q' (x >>= f) (y >>= g) := by
  intro c d hcd hpairs
  apply (hx c d hcd hpairs).bind hcd
  intro pairs' a b hsub hab
  exact hf pairs' a b (fun _ hpair => hsub (hpairs hpair)) hab

/-- Values that are equal are passed on as one. -/
theorem Agree.bind_equal {y : Run (Disturbed Store) α} {f : α → Run (Disturbed Store) γ}
    {g : α → Run (Disturbed Store) δ} (hx : Agree region sharp pairs .equal x y)
    (hf : ∀ a, Agree region sharp pairs Q' (f a) (g a)) :
    Agree region sharp pairs Q' (x >>= f) (y >>= g) := by
  apply hx.bind
  intro pairs' a b hsub hab
  rw [show a = b from hab]
  exact (hf b).of_subset hsub

theorem AgreeAt.tryCatch {c d : Context (Disturbed Store)} {f : Error → Run (Disturbed Store) α}
    {g : Error → Run (Disturbed Store) β} (hcd : c.Alike region sharp d)
    (hx : AgreeAt region sharp Q x y c d)
    (hf : ∀ e, Agree region sharp (c.pairs region d) Q (f e) (g e)) :
    AgreeAt region sharp Q (tryCatch x f) (tryCatch y g) c d := by
  obtain ⟨htogether, hends⟩ := hx
  rw [AgreeAt, execute_tryCatch, execute_tryCatch]
  rcases hrun : x.execute c with ⟨result, c₁⟩
  rcases hrun' : y.execute d with ⟨result', d₁⟩
  rw [hrun, hrun'] at htogether hends
  cases hends with
  | returned hab => exact ⟨htogether, .returned hab⟩
  | failed e =>
    obtain ⟨htogether', hends'⟩ := hf e c₁ d₁ (htogether.alike hcd) htogether.pairs_subset
    exact ⟨htogether.trans htogether', hends'⟩

theorem Agree.tryCatch {f : Error → Run (Disturbed Store) α} {g : Error → Run (Disturbed Store) β}
    (hx : Agree region sharp pairs Q x y) (hf : ∀ e, Agree region sharp pairs Q (f e) (g e)) :
    Agree region sharp pairs Q (tryCatch x f) (tryCatch y g) := by
  intro c d hcd hpairs
  apply (hx c d hcd hpairs).tryCatch hcd
  intro e
  exact (hf e).of_subset hpairs

theorem AgreeAt.attempt {c d : Context (Disturbed Store)} (hx : AgreeAt region sharp Q x y c d) :
    AgreeAt region sharp (fun pairs' => Ends (Q pairs')) (attempt x) (attempt y) c d := by
  obtain ⟨htogether, hends⟩ := hx
  rw [AgreeAt, execute_attempt, execute_attempt]
  exact ⟨htogether, .returned hends⟩

theorem Agree.attempt_equal {y : Run (Disturbed Store) α}
    (hx : Agree region sharp pairs .equal x y) :
    Agree region sharp pairs .equal (Run.attempt x) (Run.attempt y) := by
  intro c d hcd hpairs
  obtain ⟨htogether, hends⟩ := hx c d hcd hpairs
  rw [AgreeAt, execute_attempt, execute_attempt]
  exact ⟨htogether, .returned hends.eq⟩

theorem AgreeAt.notFoundAs {c d : Context (Disturbed Store)} (hcd : c.Alike region sharp d)
    (hx : AgreeAt region sharp Q x y c d) (path : String) :
    AgreeAt region sharp Q (notFoundAs path x) (notFoundAs path y) c d :=
  hx.tryCatch hcd fun e => agree_throw (e.named path)

theorem Agree.notFoundAs (hx : Agree region sharp pairs Q x y) (path : String) :
    Agree region sharp pairs Q (notFoundAs path x) (notFoundAs path y) :=
  hx.tryCatch fun e => agree_throw (e.named path)

theorem agree_forM {l : List α} {f : α → Run (Disturbed Store) Unit}
    (h : ∀ a ∈ l, Agree region sharp pairs .equal (f a) (f a)) :
    Agree region sharp pairs .equal (l.forM f) (l.forM f) := by
  induction l with
  | nil => exact agree_pure fun _ _ => rfl
  | cons a rest ih =>
    apply (h a List.mem_cons_self).bind_equal
    intro _
    exact ih fun b hb => h b (List.mem_cons_of_mem _ hb)

/-! ## 3. Requests -/

theorem decodes_send {action : Action} {r : Request} :
    (send action r : Run (Disturbed Store) Value).Decodes action r .ok := by
  have hbind : (send action r >>= pure : Run (Disturbed Store) Value).Decodes action r .ok :=
    decodes_send_bind fun _ _ => rfl
  rwa [bind_pure] at hbind

theorem Decodes.agree {action : Action} {r q : Request} {decode : Value → Except Error α}
    {y : Run (Disturbed Store) α} (hx : x.Decodes action r decode) (hy : y.Decodes action q decode)
    (hmatch : r.Matches region pairs q) : Agree region sharp pairs .equal x y := by
  intro c d hcd hpairs
  obtain ⟨htogether, hanswer⟩ := hcd.asked (hmatch.of_subset hpairs)
  rw [AgreeAt, hx c, hy d]
  refine ⟨htogether, ?_⟩
  rw [Exchange.decoded, Exchange.decoded, hanswer]
  exact .same _

end Run

/-- The sessions are of one key of the region, and their uploads stand for each other. -/
structure Session.Tied (region : Region) (pairs : List (String × String)) (s s' : Session) :
    Prop where
  bucket : s.bucket = s'.bucket
  key : s.key = s'.key
  region : region s.key = true
  nonempty : s.key ≠ ""
  pair : (s.uploadId, s'.uploadId) ∈ pairs

theorem Session.Tied.of_subset {region : Region} {pairs pairs' : List (String × String)}
    {s s' : Session} (h : s.Tied region pairs s') (hsub : pairs ⊆ pairs') :
    s.Tied region pairs' s' :=
  ⟨h.bucket, h.key, h.region, h.nonempty, hsub h.pair⟩

namespace Client

open Run

variable {region : Region} {sharp : Prop} {pairs : List (String × String)} {s s' : Session}
  {key : String}

theorem uploadPart_agree (h : s.Tied region pairs s') (number : Int) (body : Bytes) :
    Agree region sharp pairs .equal (uploadPart s number body) (uploadPart s' number body) := by
  apply (uploadPart_decodes s number body).agree (uploadPart_decodes s' number body)
  rw [← h.bucket, ← h.key]
  exact .uploadPart h.region h.pair _ _ _

theorem completeUpload_agree (h : s.Tied region pairs s') (parts : List Part) :
    Agree region sharp pairs .equal (completeUpload s parts) (completeUpload s' parts) := by
  apply (completeUpload_decodes s parts).agree (completeUpload_decodes s' parts)
  rw [Session.completion, Session.completion, ← h.bucket, ← h.key]
  exact .completeUpload h.region h.pair _ _

theorem abortUpload_agree (h : s.Tied region pairs s') :
    Agree region sharp pairs .equal (abortUpload s) (abortUpload s') := by
  apply (abortUpload_decodes s).agree (abortUpload_decodes s')
  rw [Session.abortion, Session.abortion, ← h.bucket, ← h.key]
  exact .abortUpload h.region h.pair _

theorem headObject_agree (hkey : region key = true) (bucket : String) :
    Agree region sharp pairs .equal (headObject bucket key) (headObject bucket key) :=
  (headObject_decodes bucket key).agree (headObject_decodes bucket key) (.headObject hkey bucket)

theorem getObject_agree (hkey : region key = true) (bucket : String) :
    Agree region sharp pairs .equal (getObject bucket key) (getObject bucket key) :=
  (getObject_decodes bucket key).agree (getObject_decodes bucket key) (.getObject hkey bucket none)

theorem getRange_agree (hkey : region key = true) (bucket : String) (first : Int)
    (last : Option Int) :
    Agree region sharp pairs .equal (getRange bucket key first last) (getRange bucket key first last) := by
  have hdecodes : (getRange bucket key first last : Run (Disturbed Store) Value).Decodes .getRange
      (.getObject bucket key (rangeText first last))
      fun v => (v.field "Body").mapError .malformed :=
    decodes_send_bind fun _ c => execute_decoded _ c
  exact hdecodes.agree hdecodes (.getObject hkey bucket _)

/-- A request whose answer does not matter. -/
theorem discard_send_agree {action : Action} {r : Request} (hmatch : r.Matches region pairs r) :
    Agree region sharp pairs .equal (discard (send action r)) (discard (send action r)) := by
  have hdecodes : (discard (send action r) : Run (Disturbed Store) Unit).Decodes action r
      fun _ => .ok () :=
    decodes_send_bind (f := fun _ => pure ()) fun _ _ => rfl
  exact hdecodes.agree hdecodes hmatch

theorem putObject_agree (hkey : region key = true) (bucket : String) (body : Bytes)
    (type : Option String) :
    Agree region sharp pairs .equal (putObject bucket key body type)
      (putObject bucket key body type) :=
  discard_send_agree (.putObject hkey bucket body _)

theorem deleteObject_agree (hkey : region key = true) (bucket : String) :
    Agree region sharp pairs .equal (deleteObject bucket key) (deleteObject bucket key) :=
  discard_send_agree (.deleteObject hkey bucket)

theorem copyObject_agree {source dest : String} (hsource : region source = true)
    (hdest : region dest = true) (bucket : String) :
    Agree region sharp pairs .equal (copyObject bucket source dest)
      (copyObject bucket source dest) :=
  discard_send_agree (.copyObject hsource hdest bucket)

theorem mem_of_mem_batches {keys batch : List String} (h : batch ∈ batches keys) :
    ∀ key ∈ batch, key ∈ keys := by
  induction keys using batches.induct with
  | case1 keys hempty => simp [batches, hempty] at h
  | case2 keys hne ih =>
    rw [batches, if_neg hne] at h
    intro key hkey
    rcases List.mem_cons.mp h with rfl | h
    · exact List.mem_of_mem_take hkey
    · exact List.mem_of_mem_drop (ih h key hkey)

theorem deleteObjects_agree {keys : List String} (hkeys : ∀ key ∈ keys, region key = true)
    (bucket : String) :
    Agree region sharp pairs .equal (deleteObjects bucket keys) (deleteObjects bucket keys) := by
  unfold deleteObjects
  have hbatches : ∀ batch ∈ batches keys, ∀ key ∈ batch, region key = true :=
    fun batch hbatch key hkey => hkeys key (mem_of_mem_batches hbatch key hkey)
  apply agree_forM
  intro batch hbatch
  have hdecodes : (send .deleteObjects (.deleteObjects bucket batch) :
      Run (Disturbed Store) Value).Decodes .deleteObjects (.deleteObjects bucket batch) .ok :=
    decodes_send
  apply (hdecodes.agree hdecodes (.deleteObjects (hbatches batch hbatch) bucket)).bind_equal
  intro answer
  apply (agree_decoded _).bind_equal
  rintro (_ | e)
  · exact agree_pure fun _ _ => rfl
  · exact agree_throw _

/-- The copy of an object of the region into a part. -/
theorem copyPart_agree (h : s.Tied region pairs s') (number : Int) {source : String}
    (hsource : region source = true) :
    Agree region sharp pairs .equal (copyPart s number source none)
      (copyPart s' number source none) := by
  rw [copyPart_eq, copyPart_eq, ← h.bucket]
  apply (headObject_agree hsource s.bucket).bind_equal
  intro head
  apply (sendCopy_decodes s number source head.size).agree (sendCopy_decodes s' number source head.size)
  rw [← h.bucket, ← h.key]
  exact .copyPart h.region hsource h.pair _ _ _

/-- New uploads stand for each other. -/
theorem createUpload_agree (hkey : region key = true) (hne : key ≠ "") (bucket : String)
    (type : Option String) :
    Agree region sharp pairs (fun pairs' s s' => s.Tied region pairs' s' ∧ s.key = key)
      (createUpload bucket key type) (createUpload bucket key type) := by
  intro c d hcd hpairs
  obtain ⟨result, c', hrun, hleads, hcases⟩ := createUpload_cases hcd.left.failsOnly bucket key type
  obtain ⟨result', d', hrun', hleads', hcases'⟩ := createUpload_cases hcd.right.failsOnly bucket key type
  rcases hcases with ⟨rfl, hstore⟩ | ⟨e, -, hnot, -⟩
  · rcases hcases' with ⟨rfl, hstore'⟩ | ⟨e, -, hnot, -⟩
    · obtain ⟨htogether, hpair⟩ := hcd.stores.together_startUpload hkey hne
      rw [AgreeAt, hrun, hrun']
      rw [← hstore, ← hstore'] at htogether hpair
      exact ⟨⟨htogether, hleads, hleads'⟩, .returned ⟨⟨rfl, rfl, hkey, hne, hpair⟩, rfl⟩⟩
    · exact absurd hcd.right hnot
  · exact absurd hcd.left hnot

end Client

/-! ## 4. Bodies -/

theorem Stream.drain_agree {region : Region} {sharp : Prop} {pairs : List (String × String)}
    (body : Value) : Run.Agree region sharp pairs .equal (drain body) (drain body) := by
  unfold drain
  apply (Run.agree_decoded _).bind_equal
  intro s
  unfold consume close
  apply Run.Agree.bind_equal
  · split
    · exact Run.agree_released
    · exact Run.agree_pure fun _ _ => rfl
  · intro _
    split
    · exact Run.agree_pure fun _ _ => rfl
    · exact Run.agree_throw _

end ResumableStorage
