import Dendri.Lib.FinMap

/-!
A key-value database in the manner of Redis: one flat map from keys to values of
four kinds, each with an optional deadline, and the commands that read and write
it at a given time. A command on a value of another kind fails and changes
nothing.

* `Entry`, `Db`, `find`: an entry, a database, and what it shows at a time;
* `get`, `set`, `setNxEx`, `del`, `expire`, `hset`, `hget`, `rpush`, `lrange`,
  `sadd`, `srem`, `smembers`, `keysWith`, `mget`: the commands;
* `pipeline`: commands that are sent together. All of them run, and the answer is
  an error if one of them fails;
* `read_of_find`, `amend_of_find`: a read of a value that was found, and a write to
  a value of the right kind;
* `Holds`, `Does`: the database of a program whose keys are named without
  ambiguity, as a function of these keys, and what a command does to it. Rules for
  the single commands, and `Does.cons` for those that are sent together.
-/

namespace Keyspace

/-- The value of a key. -/
inductive Content where
  | text (s : String)
  | list (xs : List String)
  | set (xs : Finset String)
  | hash (fields : Finmap fun _ : String => String)

namespace Content

/-- The value, if it is a text. -/
def asText : Content → Option String
  | text s => some s
  | _ => none

/-- The value, if it is a list. -/
def asList : Content → Option (List String)
  | list xs => some xs
  | _ => none

/-- The value, if it is a set. -/
def asSet : Content → Option (Finset String)
  | set xs => some xs
  | _ => none

/-- The value, if it is a hash. -/
def asHash : Content → Option (Finmap fun _ : String => String)
  | hash fields => some fields
  | _ => none

end Content

/-- A value, and the time at which it goes. -/
structure Entry where
  content : Content
  deadline : Option ℕ := none

/-- The entry is still there at the time `now`. -/
def Entry.isLive (now : ℕ) (e : Entry) : Bool := e.deadline.all fun d => decide (now < d)

/-- The raw map, with the entries whose time is over. -/
abbrev Db := Finmap fun _ : String => Entry

/-- The entry that a command finds. -/
def find (db : Db) (now : ℕ) (key : String) : Option Entry := (db.lookup key).filter (·.isLive now)

/-! ### Commands -/

section Commands

variable {α : Type}

/-- A read of a value of one kind, `none` for a value of another. A missing key
reads as `absent`. -/
def read (kind : Content → Option α) (absent : α) (db : Db) (now : ℕ) (key : String) : Option α :=
  match find db now key with
  | some e => kind e.content
  | none => some absent

/-- A write that changes a value of one kind and keeps its deadline. -/
def amend (kind : Content → Option α) (absent : α) (change : α → Content) (now : ℕ) (key : String)
    (db : Db) : Db × Option Unit :=
  match read kind absent db now key with
  | some a => (db.insert key ⟨change a, (find db now key).bind Entry.deadline⟩, some ())
  | none => (db, none)

/-- `GET`. -/
def get (db : Db) (now : ℕ) (key : String) : Option (Option String) :=
  read (fun c => c.asText.map some) none db now key

/-- `SET`. -/
def set (key value : String) (db : Db) : Db × Option Unit := (db.insert key ⟨.text value, none⟩, some ())

/-- `SET` with `NX` and `EX`. -/
def setNxEx (now : ℕ) (key value : String) (secs : ℕ) (db : Db) : Db × Bool :=
  if (find db now key).isSome then (db, false)
  else (db.insert key ⟨.text value, some (now + 1000 * secs)⟩, true)

/-- `DEL`. -/
def del (key : String) (db : Db) : Db × Option Unit := (db.erase key, some ())

/-- `EXPIRE`. -/
def expire (now : ℕ) (key : String) (secs : ℕ) (db : Db) : Db × Option Unit :=
  match find db now key with
  | some e => (db.insert key { e with deadline := some (now + 1000 * secs) }, some ())
  | none => (db, some ())

/-- `HSET`. -/
def hset (now : ℕ) (key field value : String) : Db → Db × Option Unit :=
  amend Content.asHash ∅ (fun fields => .hash (fields.insert field value)) now key

/-- `HGET`. -/
def hget (db : Db) (now : ℕ) (key field : String) : Option (Option String) :=
  (read Content.asHash ∅ db now key).map fun fields => fields.lookup field

/-- `RPUSH`. -/
def rpush (now : ℕ) (key value : String) : Db → Db × Option Unit :=
  amend Content.asList [] (fun xs => .list (xs ++ [value])) now key

/-- `LRANGE` from the first element to the last. -/
def lrange (db : Db) (now : ℕ) (key : String) : Option (List String) :=
  read Content.asList [] db now key

/-- `SADD`. -/
def sadd (now : ℕ) (key member : String) : Db → Db × Option Unit :=
  amend Content.asSet ∅ (fun xs => .set (insert member xs)) now key

/-- `SREM`. A set without elements is removed. -/
def srem (now : ℕ) (key member : String) (db : Db) : Db × Option Unit :=
  match read Content.asSet ∅ db now key with
  | some xs =>
      if xs.erase member = ∅ then (db.erase key, some ())
      else amend Content.asSet ∅ (fun xs => .set (xs.erase member)) now key db
  | none => (db, none)

/-- `SMEMBERS`. -/
def smembers (db : Db) (now : ℕ) (key : String) : Option (Finset String) :=
  read Content.asSet ∅ db now key

/-- `KEYS` with a text that is followed by a star. -/
def keysWith (db : Db) (now : ℕ) (start : String) : Finset String :=
  db.keys.filter fun key => (find db now key).isSome ∧ start.toList <+: key.toList

/-- `MGET`: a value of another kind reads as a missing one. -/
def mget (db : Db) (now : ℕ) (keys : List String) : List (Option String) :=
  keys.map fun key => (find db now key).bind fun e => e.content.asText

/-- Commands that are sent together. -/
def pipeline : List (Db → Db × Option Unit) → Db → Db × Option Unit
  | [], db => (db, some ())
  | command :: commands, db =>
      let (db, result) := command db
      let (db, results) := pipeline commands db
      (db, result.bind fun _ => results)

end Commands

/-! ### What they do -/

section Find

variable {α : Type} {db : Db} {now : ℕ} {key : String}

lemma read_of_find {kind : Content → Option α} {absent : α} {e : Entry} (h : find db now key = some e) :
    read kind absent db now key = kind e.content := by
  rw [read, h]

lemma read_of_find_none {kind : Content → Option α} {absent : α} (h : find db now key = none) :
    read kind absent db now key = some absent := by
  rw [read, h]

/-- A write to a value of the right kind. -/
lemma amend_of_find (kind : Content → Option α) {absent a : α} {change : α → Content} {e : Entry}
    (h : find db now key = some e) (hkind : kind e.content = some a) :
    amend kind absent change now key db = (db.insert key ⟨change a, e.deadline⟩, some ()) := by
  rw [amend, read_of_find h, hkind, h]
  rfl

/-- A write to a missing key. -/
lemma amend_of_find_none {kind : Content → Option α} {absent : α} {change : α → Content}
    (h : find db now key = none) :
    amend kind absent change now key db = (db.insert key ⟨change absent, none⟩, some ()) := by
  rw [amend, read_of_find_none h, h]
  rfl

lemma expire_of_find {e : Entry} {secs : ℕ} (h : find db now key = some e) :
    expire now key secs db = (db.insert key { e with deadline := some (now + 1000 * secs) }, some ()) := by
  rw [expire, h]

end Find

/-! ### Databases with named keys -/

/-- How a set is stored: not at all, if it is empty. -/
def setEntry (xs : Finset String) : Option Entry := if xs = ∅ then none else some ⟨.set xs, none⟩

section Named

variable {K : Type}

/-- Under the name of each key, the database has what `f` says. -/
def Holds (name : K → String) (db : Db) (f : K → Option Entry) : Prop := ∀ k, db.lookup (name k) = f k

/-- The command succeeds on every database with the content `f`, and leaves one with the
content `f'`. -/
def Does (name : K → String) (command : Db → Db × Option Unit) (f f' : K → Option Entry) : Prop :=
  ∀ db, Holds name db f → Holds name (command db).1 f' ∧ (command db).2 = some ()

variable {name : K → String} {db : Db} {f f' f'' : K → Option Entry} {now : ℕ} {k : K}

lemma Holds.find_eq (h : Holds name db f) (now : ℕ) (k : K) :
    find db now (name k) = (f k).filter (·.isLive now) := by
  rw [find, h k]

lemma Holds.find_setEntry (h : Holds name db f) (now : ℕ) {xs : Finset String} (hk : f k = setEntry xs) :
    find db now (name k) = setEntry xs := by
  rw [h.find_eq, hk, setEntry]
  split_ifs <;> rfl

lemma Holds.smembers_eq (h : Holds name db f) {xs : Finset String} (hk : f k = setEntry xs) :
    smembers db now (name k) = some xs := by
  rw [smembers, read, h.find_setEntry now hk, setEntry]
  split_ifs with hempty
  · rw [hempty]
  · rfl

/-- A text without a deadline, or nothing. -/
lemma Holds.get_eq (h : Holds name db f) {v : Option String}
    (hk : f k = v.map fun s => ⟨.text s, none⟩) : get db now (name k) = some v := by
  rw [get, read, h.find_eq, hk]
  cases v with
  | none => rfl
  | some s => rfl

/-- A list without a deadline, or nothing. -/
lemma Holds.lrange_eq (h : Holds name db f) {v : Option (List String)}
    (hk : f k = v.map fun xs => ⟨.list xs, none⟩) : lrange db now (name k) = some (v.getD []) := by
  rw [lrange, read, h.find_eq, hk]
  cases v with
  | none => rfl
  | some s => rfl

section Writes

variable [DecidableEq K] (hname : Function.Injective name)

include hname

lemma Holds.insert (h : Holds name db f) (k : K) (e : Entry) :
    Holds name (db.insert (name k) e) (Function.update f k (some e)) := by
  intro k'
  rw [FinMap.lookup_insert_ite, Function.update_apply]
  simp only [hname.eq_iff, h k']

lemma Holds.erase (h : Holds name db f) (k : K) :
    Holds name (db.erase (name k)) (Function.update f k none) := by
  intro k'
  rw [FinMap.lookup_erase_ite, Function.update_apply]
  simp only [hname.eq_iff, h k']

lemma does_set (f : K → Option Entry) (k : K) (value : String) :
    Does name (set (name k) value) f (Function.update f k (some ⟨.text value, none⟩)) :=
  fun _ h => ⟨h.insert hname k _, rfl⟩

lemma does_del (f : K → Option Entry) (k : K) :
    Does name (del (name k)) f (Function.update f k none) :=
  fun _ h => ⟨h.erase hname k, rfl⟩

/-- A write to a hash that is there at the time. -/
lemma does_hset {fields : Finmap fun _ : String => String} {deadline : Option ℕ}
    (hk : (f k).filter (·.isLive now) = some ⟨.hash fields, deadline⟩) (field value : String) :
    Does name (hset now (name k) field value) f
      (Function.update f k (some ⟨.hash (fields.insert field value), deadline⟩)) := by
  intro db h
  rw [hset, amend_of_find Content.asHash (h.find_eq now k |>.trans hk) rfl]
  exact ⟨h.insert hname k _, rfl⟩

/-- A write to a hash that is not there at the time. -/
lemma does_hset_new (hk : (f k).filter (·.isLive now) = none) (field value : String) :
    Does name (hset now (name k) field value) f
      (Function.update f k (some ⟨.hash (Finmap.insert field value ∅), none⟩)) := by
  intro db h
  rw [hset, amend_of_find_none (h.find_eq now k |>.trans hk)]
  exact ⟨h.insert hname k _, rfl⟩

lemma does_expire {e : Entry} (hk : (f k).filter (·.isLive now) = some e) (secs : ℕ) :
    Does name (expire now (name k) secs) f
      (Function.update f k (some { e with deadline := some (now + 1000 * secs) })) := by
  intro db h
  rw [expire_of_find (h.find_eq now k |>.trans hk)]
  exact ⟨h.insert hname k _, rfl⟩

/-- A write to the end of a list without a deadline. -/
lemma does_rpush {v : Option (List String)} (hk : f k = v.map fun xs => ⟨.list xs, none⟩)
    (value : String) :
    Does name (rpush now (name k) value) f
      (Function.update f k (some ⟨.list (v.getD [] ++ [value]), none⟩)) := by
  intro db h
  have hfind := h.find_eq now k
  rw [hk] at hfind
  cases v with
  | none =>
      rw [rpush, amend_of_find_none hfind]
      exact ⟨h.insert hname k _, rfl⟩
  | some xs =>
      rw [rpush, amend_of_find Content.asList hfind rfl]
      exact ⟨h.insert hname k _, rfl⟩

lemma does_sadd {xs : Finset String} (hk : f k = setEntry xs) (member : String) :
    Does name (sadd now (name k) member) f
      (Function.update f k (setEntry (Insert.insert member xs))) := by
  intro db h
  have hfind := h.find_setEntry now hk
  rw [setEntry, if_neg (Finset.insert_ne_empty member xs)]
  rw [setEntry] at hfind
  split_ifs at hfind with hempty
  · rw [sadd, amend_of_find_none hfind, hempty]
    exact ⟨h.insert hname k _, rfl⟩
  · rw [sadd, amend_of_find Content.asSet hfind rfl]
    exact ⟨h.insert hname k _, rfl⟩

lemma does_srem {xs : Finset String} (hk : f k = setEntry xs) (member : String) :
    Does name (srem now (name k) member) f
      (Function.update f k (setEntry (xs.erase member))) := by
  intro db h
  have hread : read Content.asSet ∅ db now (name k) = some xs := h.smembers_eq hk
  have hfind := h.find_setEntry now hk
  rw [srem, hread]
  dsimp only
  split_ifs with hgone
  · rw [setEntry, if_pos hgone]
    exact ⟨h.erase hname k, rfl⟩
  · -- the set had an element, so that it was there
    have hne : xs ≠ ∅ := fun hempty => hgone (by rw [hempty, Finset.erase_empty])
    rw [setEntry, if_neg hne] at hfind
    rw [setEntry, if_neg hgone, amend_of_find Content.asSet hfind rfl]
    exact ⟨h.insert hname k _, rfl⟩

end Writes

/-! ### Commands that are sent together -/

lemma Does.nil (f : K → Option Entry) : Does name (pipeline []) f f := fun _ h => ⟨h, rfl⟩

lemma Does.cons {command : Db → Db × Option Unit} {commands : List (Db → Db × Option Unit)}
    (h : Does name command f f') (hs : Does name (pipeline commands) f' f'') :
    Does name (pipeline (command :: commands)) f f'' := by
  intro db hdb
  obtain ⟨hdb', hok⟩ := h db hdb
  obtain ⟨hdb'', hok'⟩ := hs _ hdb'
  refine ⟨hdb'', ?_⟩
  show ((command db).2.bind fun _ => (pipeline commands (command db).1).2) = some ()
  rw [hok, hok']
  rfl

end Named

end Keyspace
