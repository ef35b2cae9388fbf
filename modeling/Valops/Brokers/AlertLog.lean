import Valops.Brokers.Alerts

/-!
# The log of the alerts

Every change of the table is a line of `alerts.jsonl`. What the lines hold is read back as it was, if it
can be written and holds no surrogate pair written as two characters (`Storable`), so the log gives the
table back.

Main result: `Logged.rebuilt`, with `Logged.snoc` for one more line.
-/

set_option autoImplicit false

namespace Valops.Brokers

open Py Store

/-- A value of Python that can be written, and without surrogate pairs: what the log gives back. -/
structure Storable (v : Json) : Prop where
  wf : v.WF
  text : v.isText = true
  printable : v.printable = true
  unpaired : v.unpaired = true

/-- The log write and the audit of an update succeed. -/
structure Succeeds (w : UpdateWorld) : Prop where
  written : w.written = .ok ()
  audited : w.audited = .ok ()

/-! ## Updates of an alert -/

section Update

variable {a upd kvs : Fields} {k : PyStr} {v : Json} {kv : PyStr × Json}

theorem lookup_append (k : PyStr) (xs ys : Fields) :
    Json.lookup k (xs ++ ys) = (Json.lookup k xs).or (Json.lookup k ys) := by
  induction xs with
  | nil => rfl
  | cons x xs ih =>
    obtain ⟨k', v⟩ := x
    rw [List.cons_append, Json.lookup, Json.lookup]
    split
    · rfl
    · exact ih

/-- The last value that an update gives to a key, and else the value that was there. -/
theorem lookup_update (a upd : Fields) (k : PyStr) :
    Json.lookup k (update a upd) = (Json.lookup k upd.reverse).or (Json.lookup k a) := by
  induction upd generalizing a with
  | nil => rfl
  | cons x upd ih =>
    obtain ⟨k', v⟩ := x
    have hfirst : update a ((k', v) :: upd) = update (Json.insertField k' v a) upd := rfl
    rw [hfirst, ih, List.reverse_cons, lookup_append, Option.or_assoc]
    congr 1
    rw [Json.lookup]
    split
    · rename_i hk
      rw [hk, Json.lookup_insertField_self]
      rfl
    · rename_i hk
      rw [Json.lookup_insertField_of_ne hk]
      rfl

theorem mem_update (h : kv ∈ update a upd) : kv ∈ a ∨ kv ∈ upd := by
  induction upd generalizing a with
  | nil => exact .inl h
  | cons x upd ih =>
    have hfirst : kv ∈ update (Json.insertField x.1 x.2 a) upd := h
    rcases ih hfirst with h | h
    · rcases Json.mem_insertField h with rfl | h
      · exact .inr List.mem_cons_self
      · exact .inl h
    · exact .inr (List.mem_cons_of_mem _ h)

theorem storable_obj : Storable (.obj kvs) ↔
    Json.SortedKeys kvs ∧ ∀ kv ∈ kvs, Storable (.str kv.1) ∧ Storable kv.2 := by
  constructor
  · rintro ⟨hwf, ht, hp, hu⟩
    obtain ⟨hsorted, hvalues⟩ := Json.wf_obj_iff.1 hwf
    rw [Json.isText, Json.everyChar, Json.everyCharFields_iff] at ht
    rw [Json.printable, Json.printableFields_iff] at hp
    rw [Json.unpaired, Json.unpairedFields_iff] at hu
    refine ⟨hsorted, fun kv hkv => ⟨⟨.str _, (ht kv hkv).1, rfl, ?_⟩, ?_⟩⟩
    · rw [Json.unpaired]
      exact decide_eq_true (hu kv hkv).1
    · exact ⟨hvalues kv hkv, (ht kv hkv).2, hp kv hkv, (hu kv hkv).2⟩
  · rintro ⟨hsorted, h⟩
    refine ⟨.obj hsorted fun kv hkv => (h kv hkv).2.wf, ?_, ?_, ?_⟩
    · rw [Json.isText, Json.everyChar, Json.everyCharFields_iff]
      exact fun kv hkv => ⟨(h kv hkv).1.text, (h kv hkv).2.text⟩
    · rw [Json.printable, Json.printableFields_iff]
      exact fun kv hkv => (h kv hkv).2.printable
    · rw [Json.unpaired, Json.unpairedFields_iff]
      refine fun kv hkv => ⟨?_, (h kv hkv).2.unpaired⟩
      have hkey := (h kv hkv).1.unpaired
      rw [Json.unpaired] at hkey
      exact of_decide_eq_true hkey

theorem Storable.update (ha : Storable (.obj a))
    (hupd : ∀ kv ∈ upd, Storable (.str kv.1) ∧ Storable kv.2) : Storable (.obj (update a upd)) := by
  have hwf : (Json.obj (Brokers.update a upd)).WF :=
    Json.foldl_insertField_wf upd a ha.wf fun kv hkv => (hupd kv hkv).2.wf
  refine storable_obj.2 ⟨(Json.wf_obj_iff.1 hwf).1, fun kv hkv => ?_⟩
  rcases mem_update hkv with hkv | hkv
  · exact (storable_obj.1 ha).2 kv hkv
  · exact hupd kv hkv

theorem storable_empty : Storable (.obj []) :=
  storable_obj.2 ⟨List.Pairwise.nil, fun _ h => absurd h List.not_mem_nil⟩

/-- A dict display of such values. -/
theorem storable_mkObj (h : ∀ kv ∈ kvs, Storable (.str kv.1) ∧ Storable kv.2) :
    Storable (Json.mkObj kvs) :=
  storable_empty.update h

theorem Storable.lookup (ha : Storable (.obj a)) (h : Json.lookup k a = some v) : Storable v :=
  ((storable_obj.1 ha).2 _ (Json.lookup_mem h)).2

theorem storable_ascii {s : PyStr} (h : (s.all fun c => decide (c < 0xD800)) = true) :
    Storable (.str s) := by
  rw [List.all_eq_true] at h
  have hlow : ∀ c ∈ s, c < 0xD800 := fun c hc => of_decide_eq_true (h c hc)
  refine ⟨.str s, ?_, rfl, ?_⟩
  · rw [Json.isText, Json.everyChar, Json.isText_iff]
    exact fun c hc => lt_trans (hlow c hc) (by decide)
  · rw [Json.unpaired]
    exact decide_eq_true (unpaired_of_ascii hlow)

theorem storable_bool (b : Bool) : Storable (.bool b) := ⟨.bool b, rfl, rfl, rfl⟩

theorem storable_float (x : Double) : Storable (.float x) := ⟨.float x, rfl, rfl, rfl⟩

theorem mkFields_append (xs ys : Fields) :
    Json.mkFields (xs ++ ys) = update (Json.mkFields xs) ys := by
  rw [Json.mkFields, List.foldl_append]
  rfl

theorem mkFields_eq_update (xs : Fields) : Json.mkFields xs = update [] xs := rfl

theorem sortedKeys_mkFields (xs : Fields) : Json.SortedKeys (Json.mkFields xs) := by
  have hfold : ∀ acc : Fields, Json.SortedKeys acc → Json.SortedKeys (update acc xs) := by
    induction xs with
    | nil => exact fun _ h => h
    | cons x xs ih => exact fun acc h => ih _ (Json.sortedKeys_insertField h)
  exact hfold [] List.Pairwise.nil

theorem field_update_of_none {upd : Fields} {k : String} (hk : Json.lookup (py k) upd.reverse = none) :
    field (update a upd) k = field a k := by
  rw [field, lookup_update, hk, field]
  rfl

theorem lookup_update_of_none {upd : Fields} {k : PyStr} (hk : Json.lookup k upd.reverse = none) :
    Json.lookup k (update a upd) = Json.lookup k a := by
  rw [lookup_update, hk]
  rfl

end Update

/-! ## The log -/

section Log

variable {al : Alerts} {evs : List Json} {ev : Json} {a upd : Fields} {id : PyStr}
  {alerts : Dict PyStr Fields}

/-- The log holds these values, one a line, and they give the table. -/
structure Logged (al : Alerts) (evs : List Json) : Prop where
  log : al.log = jsonLines evs
  storable : ∀ ev ∈ evs, Storable ev
  replay : evs.foldlM loadEvent [] = .ok al.alerts

theorem loadLines_text (h : ∀ ev ∈ evs, Storable ev) :
    loadLines alerts (evs.map fun ev => ev.text .default) = evs.foldlM loadEvent alerts := by
  induction evs generalizing alerts with
  | nil => rfl
  | cons ev evs ih =>
    obtain ⟨hev, hevs⟩ := List.forall_mem_cons.1 h
    rw [List.map_cons, loadLines, Json.loads_default hev.wf hev.printable hev.text hev.unpaired,
      List.foldlM_cons]
    show (loadEvent alerts ev >>= _) = _
    congr 1
    exact funext fun alerts' => ih hevs

/-- **The log gives the table back.** -/
theorem Logged.rebuilt (h : Logged al evs) : _load al.log = .ok al.alerts := by
  rw [_load, h.log, splitlines_jsonLines, loadLines_text h.storable, h.replay]

theorem Logged.snoc (h : Logged al evs) (hev : Storable ev)
    (hload : loadEvent al.alerts ev = .ok alerts) (sent_times : List Double) :
    Logged ⟨alerts, sent_times, al.log ++ (ev.text .default ++ [10])⟩ (evs ++ [ev]) := by
  refine ⟨?_, List.forall_mem_append.2 ⟨h.storable, List.forall_mem_singleton.2 hev⟩, ?_⟩
  · rw [h.log, jsonLines_append, jsonLines_singleton]
  · rw [List.foldlM_append, h.replay]
    show (loadEvent al.alerts ev >>= _) = _
    rw [hload]
    rfl

theorem log_ok {written : Except Exc Unit} (h : written = .ok ()) (hp : ev.printable = true)
    (log : PyStr) : _log written log ev = .ok (log ++ (ev.text .default ++ [10])) := by
  rw [_log, hp, h]
  rfl

theorem loadEvent_sent (hid : Json.lookup (py "alert_id") a = some (.str id)) :
    loadEvent alerts (sentEvent a) = .ok (alerts.set id a) := by
  have hev : index (sentEvent a) "ev" = .ok (.str (py "sent")) := rfl
  have halert : index (sentEvent a) "alert" = .ok (.obj a) := rfl
  have hkey : index (.obj a) "alert_id" = .ok (.str id) := by
    rw [index, hid]
    rfl
  rw [loadEvent, hev, ok_bind, if_pos (by decide), halert, ok_bind, hkey, ok_bind]
  rfl

theorem loadEvent_update (ha : Dict.get? alerts id = some a) :
    loadEvent alerts (updateEvent (.str id) upd) = .ok (alerts.set id (update a upd)) := by
  have hev : index (updateEvent (.str id) upd) "ev" = .ok (.str (py "update")) := rfl
  have hkey : index (updateEvent (.str id) upd) "alert_id" = .ok (.str id) := rfl
  have hupd : index (updateEvent (.str id) upd) "update" = .ok (.obj upd) := rfl
  have hhashed : hashed (.str id) = .ok () := rfl
  have hfound : ((asStr (.str id)).bind fun id => (alerts.get? id).map fun a => (id, a)) =
      some (id, a) := by
    rw [asStr, Option.bind_some, ha]
    rfl
  rw [loadEvent, hev, ok_bind, if_neg (by decide), hkey, ok_bind, hhashed, ok_bind, hfound]
  show (index _ "update" >>= _) = _
  rw [hupd]
  rfl

theorem storable_sentEvent (ha : Storable (.obj a)) : Storable (sentEvent a) := by
  refine storable_mkObj (List.forall_mem_cons.2 ⟨⟨storable_ascii rfl, storable_ascii rfl⟩, ?_⟩)
  exact List.forall_mem_singleton.2 ⟨storable_ascii rfl, ha⟩

theorem storable_updateEvent (hid : Storable (.str id)) (hupd : Storable (.obj upd)) :
    Storable (updateEvent (.str id) upd) := by
  refine storable_mkObj (List.forall_mem_cons.2 ⟨⟨storable_ascii rfl, storable_ascii rfl⟩, ?_⟩)
  refine List.forall_mem_cons.2 ⟨⟨storable_ascii rfl, hid⟩, ?_⟩
  exact List.forall_mem_singleton.2 ⟨storable_ascii rfl, hupd⟩

/-! ### What is logged -/

variable {alert : Fields} {w : ReadWorld} {t : Double}

theorem storable_ackMark {principal : PyStr} (hp : Storable (.str principal)) :
    Storable (.obj (ackMark t principal)) := by
  refine storable_mkObj (List.forall_mem_cons.2 ⟨⟨storable_ascii rfl, storable_bool true⟩, ?_⟩)
  refine List.forall_mem_cons.2 ⟨⟨storable_ascii rfl, storable_float t⟩, ?_⟩
  exact List.forall_mem_singleton.2 ⟨storable_ascii rfl, hp⟩

theorem storable_marked (target : Target) : Storable (.obj (marked target t)) := by
  cases target with
  | primary =>
    refine storable_mkObj (List.forall_mem_cons.2 ⟨⟨storable_ascii rfl, storable_bool true⟩, ?_⟩)
    exact List.forall_mem_singleton.2 ⟨storable_ascii rfl, storable_float t⟩
  | backup =>
    refine storable_mkObj (List.forall_mem_cons.2 ⟨⟨storable_ascii rfl, storable_bool true⟩, ?_⟩)
    exact List.forall_mem_singleton.2 ⟨storable_ascii rfl, storable_float t⟩

/-- An alert as it is registered. -/
theorem storable_stamped (halert : Storable (.obj alert)) (huuid : Storable (.str w.uuid)) {ack : Json}
    (hack : Storable ack) : Storable (.obj (update alert (stamps w ack))) := by
  refine halert.update (List.forall_mem_cons.2 ⟨⟨storable_ascii rfl, huuid⟩, ?_⟩)
  refine List.forall_mem_cons.2 ⟨⟨storable_ascii rfl, storable_float _⟩, ?_⟩
  refine List.forall_mem_cons.2 ⟨⟨storable_ascii rfl, storable_bool _⟩, ?_⟩
  refine List.forall_mem_cons.2 ⟨⟨storable_ascii rfl, hack⟩, ?_⟩
  refine List.forall_mem_cons.2 ⟨⟨storable_ascii rfl, storable_bool _⟩, ?_⟩
  refine List.forall_mem_cons.2 ⟨⟨storable_ascii rfl, storable_bool _⟩, ?_⟩
  exact List.forall_mem_singleton.2 ⟨storable_ascii rfl, storable_bool _⟩

theorem registerAlert_ok {written : Except Exc Unit} (hwritten : written = .ok ())
    (halert : Storable (.obj alert)) (al : Alerts) (id : PyStr) :
    registerAlert written al id alert = (.ok (), ⟨Dict.set al.alerts id alert, al.sent_times,
      al.log ++ ((sentEvent alert).text .default ++ [10])⟩) := by
  have hlog := log_ok hwritten (storable_sentEvent halert).printable al.log
  unfold registerAlert
  simp only [hlog]

/-- The alerts after an update. -/
def Alerts.mark (al : Alerts) (id : PyStr) (a upd : Fields) : Alerts :=
  ⟨Dict.set al.alerts id (update a upd), al.sent_times,
    al.log ++ ((updateEvent (.str id) upd).text .default ++ [10])⟩

theorem applyUpdate_ok {w : UpdateWorld} (hw : Succeeds w) (al : Alerts)
    (hid : Storable (.str id)) (hupd : Storable (.obj upd)) :
    applyUpdate w al id a (.str id) upd = (.ok (), Alerts.mark al id a upd) := by
  have hlog := log_ok hw.written (storable_updateEvent hid hupd).printable al.log
  unfold applyUpdate
  simp only [hlog, hw.audited]
  rfl

end Log

end Valops.Brokers
