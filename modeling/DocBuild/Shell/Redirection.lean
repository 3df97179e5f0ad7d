import DocBuild.Shell.Expansion

namespace DocBuild.Shell

/-- Carries out redirections; answers whether all of them succeeded. -/
def redirect (output : Word → Run Word) : List Redirect → Run Bool
  | [] => return true
  | r :: rest => do
    let target := (← expandOne output r.target).plain
    let s ← get
    let openFor (append : Bool) : Run Bool := do
      let path := target.toBytes
      let kept := if append then (s.tree.readFile s.directory path).toOption.getD [] else []
      if path = Bytes.ofString "/dev/null" then
        modify fun s =>
          if r.descriptor = 2 then { s with sink2 := .nowhere } else { s with sink1 := .nowhere }
        return true
      match s.tree.writeFile s.directory path kept with
      | .error e =>
        let reason := match e with
          | .system e => if e = SystemError.noEntry then "Directory nonexistent" else e.description
          | e => e.message
        shellComplaint s!"cannot create {Utf8.lossy path}: {reason}"
        return false
      | .ok t =>
        match t.locate s.directory .follow path with
        | .error _ => return false
        | .ok l =>
          set { s with tree := t }
          if r.descriptor = 2 then modify fun s => { s with sink2 := .file l }
          else if r.descriptor = 1 then modify fun s => { s with sink1 := .file l }
          return true
    let ok ← match r.kind with
      | .write => openFor false
      | .append => openFor true
      | .read => do
        let path := target.toBytes
        if path = Bytes.ofString "/dev/null" then
          set { s with input := [] }
          pure true
        else
          match s.tree.readFile s.directory path with
          | .ok content => do
            set { s with input := Word.ofBytes content }
            pure true
          | .error e => do
            let reason := match e with
              | .system e => if e = SystemError.noEntry then "No such file" else e.description
              | e => e.message
            shellComplaint s!"cannot open {Utf8.lossy path}: {reason}"
            pure false
      | .here => do
        set { s with input := target }
        pure true
      | .duplicate => do
        let sink := match target with
          | ['1'] => some s.sink1
          | ['2'] => some s.sink2
          | ['-'] => some .nowhere
          | _ => none
        match sink with
        | some k => do
          if r.descriptor = 2 then set { s with sink2 := k }
          else if r.descriptor = 1 then set { s with sink1 := k }
          pure true
        | none => do
          shellComplaint "bad descriptor"
          pure false
    if ok then redirect output rest else return false

/-- Runs with redirections and puts the descriptors back; answers whether all of them succeeded. -/
def redirected (output : Word → Run Word) (rs : List Redirect) (body : Run Unit) : Run Bool := do
  let before ← get
  let feeds (r : Redirect) : Bool := r.kind = .read || r.kind = .here
  let restore : Run Unit := modify fun s =>
    { s with sink1 := before.sink1, sink2 := before.sink2,
             input := if rs.any feeds then before.input else s.input }
  if ← redirect output rs then
    tryCatch body fun leave => do
      restore
      throw leave
    restore
    return true
  else
    restore
    setStatus 2
    return false

end DocBuild.Shell
