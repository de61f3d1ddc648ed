import ScriptAudit.Command.Bundled.Shape

/-! Weapons, score, blips, cameras, pickups and cutscenes. -/
namespace ScriptAudit.Bundled

def worldCommands : List Command :=
  [condition 0x0100 "locate_char_in_car_3d" [any, real, real, real, real, real, real, int],
   condition 0x0101 "locate_stopped_char_any_means_3d" [any, real, real, real, real, real, real,
      int],
   condition 0x0102 "locate_stopped_char_on_foot_3d" [any, real, real, real, real, real, real, int],
   condition 0x0103 "locate_stopped_char_in_car_3d" [any, real, real, real, real, real, real, int],
   condition 0x0104 "locate_char_any_means_char_3d" [any, any, real, real, real, int],
   condition 0x0105 "locate_char_on_foot_char_3d" [any, any, real, real, real, int],
   condition 0x0106 "locate_char_in_car_char_3d" [any, any, real, real, real, int],
   action 0x0107 "create_object" [model, real, real, real, outOwn],
   action 0x0108 "delete_object" [any],
   action 0x0109 "add_score" [any, int],
   condition 0x010A "is_score_greater" [any, int],
   action 0x010B "store_score" [any, outOwn],
   action 0x010D "alter_wanted_level" [any, int],
   action 0x010E "alter_wanted_level_no_drop" [any, int],
   condition 0x010F "is_wanted_level_greater" [any, int],
   action 0x0110 "clear_wanted_level" [any],
   action 0x0111 "set_wasted_busted_check" [int],
   condition 0x0112 "has_death_arrest_been_executed" [],
   action 0x0114 "add_ammo_to_char" [any, int, int],
   condition 0x0117 "is_player_dead" [any],
   condition 0x0118 "is_char_dead" [any],
   condition 0x0119 "is_car_dead" [any],
   condition 0x0121 "is_char_in_zone" [any, string],
   condition 0x0122 "is_player_pressing_horn" [any],
   action 0x0129 "create_char_inside_car" [any, int, model, outOwn],
   condition 0x0137 "is_car_model" [any, model],
   action 0x014B "create_car_generator" [real, real, real, real, model, int, int, int, int, int,
      int, int, outOwn],
   action 0x014C "switch_car_generator" [any, int],
   action 0x014E "display_onscreen_timer" [any, int],
   action 0x014F "clear_onscreen_timer" [any],
   action 0x0151 "clear_onscreen_counter" [any],
   action 0x0158 "point_camera_at_car" [any, int, int],
   action 0x0159 "point_camera_at_char" [any, int, int],
   action 0x015A "restore_camera" [],
   action 0x015D "set_time_scale" [real],
   action 0x015F "set_fixed_camera_position" [real, real, real, real, real, real],
   action 0x0160 "point_camera_at_point" [real, real, real, int],
   action 0x0164 "remove_blip" [any],
   action 0x0165 "change_blip_colour" [any, int],
   action 0x0168 "change_blip_scale" [any, int],
   action 0x0169 "set_fading_colour" [int, int, int],
   action 0x016A "do_fade" [int, int],
   condition 0x016B "get_fading_status" [],
   action 0x016C "add_hospital_restart" [real, real, real, real],
   action 0x016D "add_police_restart" [real, real, real, real],
   action 0x016E "override_next_restart" [real, real, real, real],
   action 0x0170 "get_player_heading" [any, outOwn],
   action 0x0171 "set_player_heading" [any, real],
   action 0x0172 "get_char_heading" [any, outOwn],
   action 0x0173 "set_char_heading" [any, real],
   action 0x0174 "get_car_heading" [any, outOwn],
   action 0x0175 "set_car_heading" [any, real],
   action 0x0176 "get_object_heading" [any, outOwn],
   action 0x0177 "set_object_heading" [any, real],
   action 0x0180 "set_on_mission_flag" [any],
   action 0x0186 "add_blip_for_car" [any, outOwn],
   action 0x0187 "add_blip_for_char" [any, outOwn],
   action 0x0188 "add_blip_for_object" [any, outOwn],
   action 0x018A "add_blip_for_coord" [real, real, real, outOwn],
   action 0x018B "change_blip_display" [any, int],
   action 0x018C "add_one_off_sound" [real, real, real, int],
   action 0x01B2 "give_weapon_to_char" [any, int, int],
   action 0x01B4 "set_player_control" [any, int],
   action 0x01B5 "force_weather" [int],
   action 0x01B6 "force_weather_now" [int],
   action 0x01B7 "release_weather" [],
   action 0x01B9 "set_current_char_weapon" [any, int],
   action 0x01BB "get_object_coordinates" [any, outOwn, outOwn, outOwn],
   action 0x01BC "set_object_coordinates" [any, real, real, real],
   action 0x01BD "get_game_timer" [outOwn],
   action 0x01BE "turn_char_to_face_coord" [any, real, real, real],
   condition 0x01C1 "is_car_stopped" [any],
   action 0x01C2 "mark_char_as_no_longer_needed" [any],
   action 0x01C3 "mark_car_as_no_longer_needed" [any],
   action 0x01C4 "mark_object_as_no_longer_needed" [any],
   action 0x01C5 "dont_remove_char" [any],
   action 0x01C7 "dont_remove_object" [any],
   action 0x01C8 "create_char_as_passenger" [any, int, model, int, outOwn],
   action 0x01D4 "task_enter_car_as_passenger_now" [any, any],
   action 0x01E3 "print_with_number_big" [string, int, int, int],
   action 0x01E5 "print_with_number_now" [string, int, int, int],
   action 0x01E7 "switch_roads_off" [real, real, real, real, real, real],
   action 0x01E8 "switch_roads_on" [real, real, real, real, real, real],
   action 0x01EB "set_car_density_multiplier" [real],
   action 0x01EC "set_car_heavy" [any, int],
   action 0x01F0 "set_max_wanted_level" [int],
   condition 0x01F3 "is_car_in_air_proper" [any],
   condition 0x01F4 "is_car_upsidedown" [any],
   action 0x01F5 "get_player_char" [any, outOwn],
   action 0x01F7 "set_police_ignore_player" [any, int],
   action 0x0208 "generate_random_float_in_range" [real, real, outOwn],
   action 0x0209 "generate_random_int_in_range" [int, int, outOwn],
   action 0x020A "lock_car_doors" [any, int],
   action 0x0213 "create_pickup" [model, int, real, real, real, outOwn],
   condition 0x0214 "has_pickup_been_collected" [any],
   action 0x0215 "remove_pickup" [any],
   action 0x021B "set_target_car_for_mission_garage" [any, any],
   action 0x0223 "set_char_health" [any, int],
   action 0x0224 "set_car_health" [any, int],
   action 0x0226 "get_char_health" [any, outOwn],
   action 0x0227 "get_car_health" [any, outOwn],
   action 0x0229 "change_car_colour" [any, int, int],
   action 0x022A "switch_ped_roads_on" [real, real, real, real, real, real],
   action 0x022B "switch_ped_roads_off" [real, real, real, real, real, real],
   action 0x023C "load_special_character" [int, string],
   condition 0x023D "has_special_character_loaded" [int],
   action 0x0247 "request_model" [model],
   condition 0x0248 "has_model_loaded" [model],
   action 0x0249 "mark_model_as_no_longer_needed" [model],
   condition 0x0256 "is_player_playing" [any],
   action 0x02A3 "switch_widescreen" [int],
   action 0x02A7 "add_sprite_blip_for_contact_point" [real, real, real, int, outOwn],
   action 0x02A8 "add_sprite_blip_for_coord" [real, real, real, int, outOwn],
   action 0x02AB "set_char_proofs" [any, int, int, int, int, int],
   action 0x02AC "set_car_proofs" [any, int, int, int, int, int],
   condition 0x02BF "is_car_in_water" [any],
   condition 0x02CA "is_car_on_screen" [any],
   condition 0x02CB "is_char_on_screen" [any],
   action 0x02CE "get_ground_z_for_3d_coord" [real, real, real, outOwn],
   condition 0x02E0 "is_char_shooting" [any],
   action 0x02E3 "get_car_speed" [any, outOwn],
   action 0x02E4 "load_cutscene" [string],
   action 0x02E7 "start_cutscene" [],
   action 0x02E8 "get_cutscene_time" [outOwn],
   condition 0x02E9 "has_cutscene_finished" [],
   action 0x02EA "clear_cutscene" [],
   action 0x02EB "restore_camera_jumpcut" [],
   action 0x02F6 "cos" [real, outOwn],
   action 0x02F7 "sin" [real, outOwn]]

end ScriptAudit.Bundled
