import LiveScene.Server.Render

/-!
# Changes

What each `Change` does to a server. All of them are edits of the scene, one or several in a row, so
all of them tell viewers what they did by the commands they queue. Only making a texture from a file
can fail, and then nothing is changed.
-/

namespace LiveScene.Server

/-- Makes a change. -/
def change (s : Server) : Change Listener → Reply × Server
  | .createTexture t => (.nothing, s.createTexture t)
  | .createBox b => (.nothing, s.edit (·.create (.box b)))
  | .createSphere b => (.nothing, s.edit (·.create (.sphere b)))
  | .createCapsule c => (.nothing, s.edit (·.create (.capsule c)))
  | .createLine l => (.nothing, s.edit (·.create (.line l)))
  | .createMesh key m => (.nothing, s.createMesh key m)
  | .createText t => (.nothing, s.edit (·.create (.text t)))
  | .createButton b l => (.nothing, s.edit (·.createButton b l))
  | .createSlider b l => (.nothing, s.edit (·.createSlider b l))
  | .createPlot p => (.nothing, s.edit (·.create (.plot p)))
  | .createTextureFromFile key path =>
    match s.createTextureFromFile key path with
    | .ok s => (.ok, s)
    | .error e => (.failed e, s)
  | .createMeshFromAsset key a p => (.nothing, s.createMeshFromAsset key a p)
  | .set a key v => (.nothing, s.set a key v)
  | .setContents key contents =>
    (.nothing, s.edit fun scene =>
      scene.update (scene.store.setContents? key contents) (.setContents key contents))
  | .setLabel key label =>
    (.nothing, s.edit fun scene =>
      scene.update (scene.store.setLabel? key label) (.setLabel key label))
  | .setSlider p key x =>
    (.nothing, s.edit fun scene =>
      scene.update (scene.store.setSlider? p key x) (.setSlider p key x))
  | .setPlotData key data =>
    (.nothing, s.edit fun scene =>
      scene.update (scene.store.setPlotData? key data) (.setPlotData key data))
  | .setLayout p key v =>
    (.nothing, s.edit fun scene =>
      scene.update (scene.store.setLayout? p key v) (.setLayout p key v))
  | .delete key => (.nothing, s.delete key)
  | .deleteElement key => (.nothing, s.edit (·.deleteElement key))
  | .deleteUnder stem => (.nothing, s.deleteUnder stem)
  | .clear => (.nothing, s.edit (·.clear))
  | .onDrag key l => (.nothing, s.edit (·.onDrag key l))
  | .renderWorld w stem forces magnitudes => (.nothing, s.renderWorld w stem forces magnitudes)
  | .renderSkeleton k stem color => (.nothing, s.renderSkeleton k stem color)
  | .renderBasis scale stem pos euler => (.nothing, s.renderBasis scale stem pos euler)
  | .renderTrajectories ts stem => (.nothing, s.renderTrajectories ts stem)
  | .renderWrench b w scale stem => (.nothing, s.renderWrench b w scale stem)
  | .clearWrench b stem => (.nothing, s.clearWrench b stem)
  | .renderVelocities b scale stem => (.nothing, s.renderVelocities b scale stem)

end LiveScene.Server
