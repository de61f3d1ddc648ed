import ScriptAudit.Text.Blank
import ScriptAudit.Text.Capital

/-! The cheats of the game in the order of its engine. A cheat with an empty code cannot be
typed. -/
namespace ScriptAudit

structure Cheat where
  index : Nat
  code : String
  description : String
deriving DecidableEq

namespace Cheat

def catalogue : List (String × String) :=
  [("THUGSARMOURY", "Weapon set 1"),
   ("PROFESSIONALSKIT", "Weapon set 2"),
   ("NUTTERSTOYS", "Weapon set 3"),
   ("", "Give dildo, minigun and thermal/night-vision goggles"),
   ("", "Advance clock by 4 hours"),
   ("", "Skip to completion on some missions"),
   ("", "Debug (show mappings)"),
   ("", "Full invincibility"),
   ("", "Debug (show tap to target)"),
   ("", "Debug (show targeting)"),
   ("INEEDSOMEHELP", "Give health, armour and $250,000"),
   ("TURNUPTHEHEAT", "Increase wanted level by two stars"),
   ("TURNDOWNTHEHEAT", "Clear wanted level"),
   ("PLEASANTLYWARM", "Sunny weather"),
   ("TOODAMNHOT", "Very sunny weather"),
   ("DULLDULLDAY", "Overcast weather"),
   ("STAYINANDWATCHTV", "Rainy weather"),
   ("CANTSEEWHEREIMGOING", "Foggy weather"),
   ("TIMEJUSTFLIESBY", "Faster time"),
   ("SPEEDITUP", "Faster gameplay"),
   ("SLOWITDOWN", "Slower gameplay"),
   ("ROUGHNEIGHBOURHOOD", "Pedestrians riot, give player golf club"),
   ("STOPPICKINGONME", "Pedestrians attack the player"),
   ("SURROUNDEDBYNUTTERS", "Give pedestrians weapons"),
   ("TIMETOKICKASS", "Spawn Rhino tank"),
   ("OLDSPEEDDEMON", "Spawn Bloodring Banger"),
   ("", "Spawn stock car"),
   ("NOTFORPUBLICROADS", "Spawn Hotring Racer A"),
   ("JUSTTRYANDSTOPME", "Spawn Hotring Racer B"),
   ("WHERESTHEFUNERAL", "Spawn Romero"),
   ("CELEBRITYSTATUS", "Spawn Stretch Limousine"),
   ("TRUEGRIME", "Spawn Trashmaster"),
   ("18HOLES", "Spawn Caddy"),
   ("ALLCARSGOBOOM", "Explode all vehicles"),
   ("WHEELSONLYPLEASE", "Invisible cars"),
   ("STICKLIKEGLUE", "Improved suspension and handling"),
   ("GOODBYECRUELWORLD", "Suicide"),
   ("DONTTRYANDSTOPME", "Traffic lights are always green"),
   ("ALLDRIVERSARECRIMINALS", "Aggressive drivers"),
   ("PINKISTHENEWCOOL", "Pink traffic"),
   ("SOLONGASITSBLACK", "Black traffic"),
   ("", "Cars have sideways wheels"),
   ("FLYINGFISH", "Flying boats"),
   ("WHOATEALLTHEPIES", "Maximum fat"),
   ("BUFFMEUP", "Maximum muscle"),
   ("", "Maximum gambling skill"),
   ("LEANANDMEAN", "Minimum fat and muscle"),
   ("BLUESUEDESHOES", "Pedestrians are Elvis Presley"),
   ("ATTACKOFTHEVILLAGEPEOPLE", "Pedestrians attack the player with guns and rockets"),
   ("LIFESABEACH", "Beach party theme"),
   ("ONLYHOMIESALLOWED", "Gang wars"),
   ("BETTERSTAYINDOORS", "Pedestrians replaced with fighting gang members"),
   ("NINJATOWN", "Triad theme"),
   ("LOVECONQUERSALL", "Pimp mode"),
   ("EVERYONEISPOOR", "Rural traffic"),
   ("EVERYONEISRICH", "Sports car traffic"),
   ("CHITTYCHITTYBANGBANG", "Flying cars"),
   ("CJPHONEHOME", "Very high bunny hops"),
   ("JUMPJET", "Spawn Hydra"),
   ("IWANTTOHOVER", "Spawn Vortex"),
   ("TOUCHMYCARYOUDIE", "Destroy other vehicles on collision"),
   ("SPEEDFREAK", "All cars have nitro"),
   ("BUBBLECARS", "Cars float away when hit"),
   ("NIGHTPROWLER", "Always midnight"),
   ("DONTBRINGONTHENIGHT", "Always 9PM"),
   ("SCOTTISHSUMMER", "Stormy weather"),
   ("SANDINMYEARS", "Sandstorm"),
   ("", "Predator?"),
   ("KANGAROO", "10x jump height"),
   ("NOONECANHURTME", "Infinite health"),
   ("MANFROMATLANTIS", "Infinite lung capacity"),
   ("LETSGOBASEJUMPING", "Spawn Parachute"),
   ("ROCKETMAN", "Spawn Jetpack"),
   ("IDOASIPLEASE", "Lock wanted level"),
   ("BRINGITON", "Six-star wanted level"),
   ("STINGLIKEABEE", "Super punches"),
   ("IAMNEVERHUNGRY", "Player never gets hungry"),
   ("STATEOFEMERGENCY", "Pedestrians riot"),
   ("CRAZYTOWN", "Carnival theme"),
   ("TAKEACHILLPILL", "Adrenaline effects"),
   ("FULLCLIP", "Everyone has unlimited ammo"),
   ("IWANNADRIVEBY", "Full weapon control in vehicles"),
   ("GHOSTTOWN", "No pedestrians, reduced live traffic"),
   ("HICKSVILLE", "Rural theme"),
   ("WANNABEINMYGANG", "Recruit anyone with pistols"),
   ("NOONECANSTOPUS", "Recruit anyone with AK-47s"),
   ("ROCKETMAYHEM", "Recruit anyone with rocket launchers"),
   ("WORSHIPME", "Maximum respect"),
   ("HELLOLADIES", "Maximum sex appeal"),
   ("ICANGOALLNIGHT", "Maximum stamina"),
   ("PROFESSIONALKILLER", "Hitman level for all weapons"),
   ("NATURALTALENT", "Maximum vehicle skills"),
   ("OHDUDE", "Spawn Hunter"),
   ("FOURWHEELFUN", "Spawn Quad"),
   ("HITTHEROADJACK", "Spawn Tanker with Tanker Trailer"),
   ("ITSALLBULL", "Spawn Dozer"),
   ("FLYINGTOSTUNT", "Spawn Stunt Plane"),
   ("MONSTERMASH", "Spawn Monster Truck"),
   ("", "Prostitutes pay you?"),
   ("", "Taxis have hydraulics and nitro"),
   ("", "CRASHES! Slot cheat 1"),
   ("", "CRASHES! Slot cheat 2"),
   ("", "CRASHES! Slot cheat 3"),
   ("", "CRASHES! Slot cheat 4"),
   ("", "CRASHES! Slot cheat 5"),
   ("", "CRASHES! Slot cheat 6"),
   ("", "CRASHES! Slot cheat 7"),
   ("", "CRASHES! Slot cheat 8"),
   ("", "CRASHES! Slot cheat 9"),
   ("", "CRASHES! Slot cheat 10"),
   ("", "Xbox helper")]

def all : List Cheat := catalogue.mapIdx fun index entry => ⟨index, entry.1, entry.2⟩

/-- Codes are typed in any case, with blanks around them. -/
def find? (code : Text) : Option Cheat :=
  match Text.capitals (Text.trim code) with
  | [] => none
  | token => all.find? fun cheat => Text.ofString cheat.code = token

/-- The cheats from one index up to another; negative ones count from the end. -/
def slice (first last : Int) : List Cheat :=
  let place (index : Int) : Nat := (if index < 0 then index + all.length else index).toNat
  (all.take (place last)).drop (place first)

end Cheat
end ScriptAudit
